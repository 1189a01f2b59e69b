import Localview.JsonReading
import Localview.HexText

/-! # Proof receipts

A receipt signs the canonical hash of its payload.  Verification takes the one payload, hash
and signature that were signed; the attestor and the id of the key are not signed.
-/
namespace Localview
open List JsonValue EvidenceCodec Option
namespace Attestation

/-- The verdict a receipt attests. -/
inductive ReceiptVerdict
  | pass
  | fail
  | inconclusive

def ReceiptVerdict.name : ReceiptVerdict → String
  | pass => "pass"
  | fail => "fail"
  | inconclusive => "inconclusive"

/-- Who signs a receipt. -/
inductive AttestorKind
  | «local»
  | ci

@[ext]
structure ProofReceiptPayload where
  schemaVersion : Nat
  (project baselineRevision candidateRevision environmentHash planHash : String)
  (evidenceHashes contractHashes : List String)
  mutationRunHash : Option String
  verdict : ReceiptVerdict
  createdAt : Timestamp

/-- A payload, hashed and signed. -/
structure ProofReceipt where
  payload : ProofReceiptPayload
  payloadHash : String
  attestor : AttestorKind
  (keyId signature : String)

/-- HMAC takes keys of any length, so nothing answers `invalidKey`. -/
inductive AttestationError
  | weakKey
  | invalidKey
  | invalidSignatureEncoding

/-- SHA-256 of a text's UTF-8 in hex, HMAC-SHA256 of a text under a key, and the texts of
times. -/
structure AttestationCodec where
  sha256Hex : List Char → String
  hmacSha256 : Bytes → String → Bytes
  timeText : Timestamp → String

section
variable (codec : AttestationCodec)

/-- The fields as they are serialized. -/
def members (payload : ProofReceiptPayload) : List (String × JsonValue) :=
  [("schema_version", .number (String.ofList (Nat.toDigits 10 payload.schemaVersion))),
    ("project", .string payload.project),
    ("baseline_revision", .string payload.baselineRevision),
    ("candidate_revision", .string payload.candidateRevision),
    ("environment_hash", .string payload.environmentHash),
    ("plan_hash", .string payload.planHash),
    ("evidence_hashes", .array (payload.evidenceHashes.map .string)),
    ("contract_hashes", .array (payload.contractHashes.map .string)),
    ("mutation_run_hash", ofOption payload.mutationRunHash),
    ("verdict", .string payload.verdict.name),
    ("created_at", .string (codec.timeText payload.createdAt))]

/-- The text that is hashed. -/
def canonicalText (payload : ProofReceiptPayload) : List Char :=
  (canonicalValue (.object (members codec payload))).text

def canonicalHash (payload : ProofReceiptPayload) : String :=
  "sha256:" ++ codec.sha256Hex (canonicalText codec payload)

def sign (payload : ProofReceiptPayload) (attestor : AttestorKind) (keyId : String)
    (key : Bytes) : Except AttestationError ProofReceipt :=
  if key.length < 16 then .error .weakKey
  else
    let payloadHash := canonicalHash codec payload
    .ok
      { payload, payloadHash, attestor, keyId
        signature := String.ofList (hexEncode (codec.hmacSha256 key payloadHash)) }

def verify (receipt : ProofReceipt) (key : Bytes) : Except AttestationError Bool :=
  if canonicalHash codec receipt.payload ≠ receipt.payloadHash then .ok false
  else
    match hexDecode receipt.signature.toList with
    | none => .error .invalidSignatureEncoding
    | some signature => .ok (decide (codec.hmacSha256 key receipt.payloadHash = signature))

end

section
variable (codec : AttestationCodec)

/-- The payloads are no collision of SHA-256. -/
def CollisionFree (payload payload' : ProofReceiptPayload) : Prop :=
  codec.sha256Hex (canonicalText codec payload) = codec.sha256Hex (canonicalText codec payload') →
    canonicalText codec payload = canonicalText codec payload'

/-- The receipt carries the tag of no text but the one that was signed under the key. -/
def Unforged (key : Bytes) (signed : String) (receipt : ProofReceipt) : Prop :=
  hexDecode receipt.signature.toList = some (codec.hmacSha256 key receipt.payloadHash) →
    receipt.payloadHash = signed

end

/-! ## One text a payload -/

section
variable {codec : AttestationCodec} {payload payload' : ProofReceiptPayload}
  {receipt receipt' : ProofReceipt} {key : Bytes} {attestor : AttestorKind} {keyId : String}

theorem collisionFree_of_injective (h : Function.Injective codec.sha256Hex) :
    CollisionFree codec payload payload' := fun heq => h heq

theorem canonicalItems_strings (texts : List String) :
    canonicalItems (texts.map .string) = texts.map .string := by
  induction texts with
  | nil => rfl
  | cons text texts ih => rw [map_cons, canonicalItems, canonicalValue, ih]

theorem canonicalValue_ofOption (text : Option String) :
    canonicalValue (ofOption text) = ofOption text := by
  cases text with
  | none => rfl
  | some text => rfl

theorem ofOption_inj {text text' : Option String}
    (h : ofOption text = ofOption text') : text = text' := by
  cases text <;> cases text'
  · rfl
  · cases h
  · cases h
  · exact congrArg some (string.inj h)

theorem name_inj {verdict verdict' : ReceiptVerdict} (h : verdict.name = verdict'.name) :
    verdict = verdict' := by
  cases verdict <;> cases verdict' <;> first | rfl | exact absurd h (by decide)

theorem numeral_toDigits (n : Nat) : Numeral (String.ofList (Nat.toDigits 10 n)) := by
  rw [Numeral, String.toList_ofList]
  exact ⟨Nat.toDigits_ne_nil, fun c hc => Nat.isDigit_of_mem_toDigits (by omega) (by omega) hc⟩

theorem plainItems_strings (texts : List String) : PlainItems (texts.map .string) := by
  induction texts with
  | nil => exact trivial
  | cons text texts ih => exact ⟨trivial, ih⟩

theorem plain_ofOption (text : Option String) : (ofOption text).Plain := by
  cases text with
  | none => exact trivial
  | some text => exact trivial

section
variable (payload : ProofReceiptPayload)

/-- The members are canonical as they are serialized. -/
theorem canonicalMembers_members :
    canonicalMembers (members codec payload) = members codec payload := by
  simp only [members, canonicalMembers, canonicalValue, canonicalItems_strings,
    canonicalValue_ofOption]

theorem plain_members : PlainMembers (members codec payload) :=
  ⟨numeral_toDigits _, trivial, trivial, trivial, trivial, trivial, plainItems_strings _,
    plainItems_strings _, plain_ofOption _, trivial, trivial, trivial⟩

theorem plain_canonicalMembers :
    ∀ member ∈ members codec payload, (canonicalValue member.2).Plain := by
  intro member hmem
  have hcanonical : (member.1, canonicalValue member.2) ∈ members codec payload := by
    rw [← canonicalMembers_members, canonicalMembers_eq_map]
    exact mem_map_of_mem (f := fun entry => (entry.1, canonicalValue entry.2)) hmem
  exact plainMembers_iff.mp (plain_members payload) _ hcanonical

theorem keys_members : (members codec payload).map Prod.fst =
      ["schema_version", "project", "baseline_revision", "candidate_revision",
        "environment_hash", "plan_hash", "evidence_hashes", "contract_hashes",
        "mutation_run_hash", "verdict", "created_at"] := rfl

theorem nodup_keys : ((members codec payload).map Prod.fst).Nodup := by
  rw [keys_members]
  decide +kernel

end

theorem strings_inj {texts texts' : List String}
    (h : array (texts.map .string) = .array (texts'.map .string)) : texts = texts' :=
  map_injective_iff.mpr (fun _ _ => string.inj) (array.inj h)

/-- Members of one text hold the same under each key. -/
theorem lookup_members (h : canonicalText codec payload = canonicalText codec payload')
    (key : String) : (members codec payload).lookup key = (members codec payload').lookup key := by
  rw [canonicalText, canonicalText] at h
  have hlookup := lookup_of_text_eq (nodup_keys payload) (nodup_keys payload')
    (plain_canonicalMembers payload) (plain_canonicalMembers payload') h key
  rw [canonicalMembers_members, canonicalMembers_members] at hlookup
  exact hlookup

/-- **One payload a text.** -/
theorem eq_of_canonicalText (htime : Function.Injective codec.timeText)
    (h : canonicalText codec payload = canonicalText codec payload') : payload = payload' := by
  have hlookup := lookup_members h
  have hversion := number.inj (some.inj (hlookup "schema_version"))
  have hdigits : payload.schemaVersion = payload'.schemaVersion := by
    rw [String.ofList_inj] at hversion
    have hread := congrArg (fun text => Nat.ofDigitChars 10 text 0) hversion
    simp only [Nat.ofDigitChars_ten_toDigits] at hread
    exact hread
  have hproject := string.inj (some.inj (hlookup "project"))
  have hbaseline := string.inj (some.inj (hlookup "baseline_revision"))
  have hcandidate := string.inj (some.inj (hlookup "candidate_revision"))
  have henvironment := string.inj (some.inj (hlookup "environment_hash"))
  have hplan := string.inj (some.inj (hlookup "plan_hash"))
  have hevidence := strings_inj (some.inj (hlookup "evidence_hashes"))
  have hcontracts := strings_inj (some.inj (hlookup "contract_hashes"))
  have hmutation := ofOption_inj (some.inj (hlookup "mutation_run_hash"))
  have hverdict := name_inj (string.inj (some.inj (hlookup "verdict")))
  have hcreated := htime (string.inj (some.inj (hlookup "created_at")))
  exact ProofReceiptPayload.ext hdigits hproject hbaseline hcandidate henvironment hplan
    hevidence hcontracts hmutation hverdict hcreated

/-! ## Signing and verifying -/

theorem eq_of_canonicalHash (htime : Function.Injective codec.timeText)
    (hcollision : CollisionFree codec payload payload')
    (h : canonicalHash codec payload = canonicalHash codec payload') : payload = payload' := by
  have htail : codec.sha256Hex (canonicalText codec payload) =
      codec.sha256Hex (canonicalText codec payload') := by
    have htexts := congrArg String.toList h
    rw [canonicalHash, canonicalHash, String.toList_append, String.toList_append] at htexts
    exact String.toList_inj.mp (append_cancel_left htexts)
  exact eq_of_canonicalText htime (hcollision htail)

/-- What is accepted. -/
theorem verify_eq_true_iff : verify codec receipt key = .ok true ↔
      canonicalHash codec receipt.payload = receipt.payloadHash ∧
        hexDecode receipt.signature.toList =
          some (codec.hmacSha256 key receipt.payloadHash) := by
  rw [verify]
  by_cases hhash : canonicalHash codec receipt.payload = receipt.payloadHash
  · rw [if_neg (not_not.mpr hhash)]
    cases htag : hexDecode receipt.signature.toList with
    | none => simp
    | some tag => simp [hhash, eq_comm]
  · rw [if_pos hhash]
    simp [hhash]

theorem sign_eq_ok (h : sign codec payload attestor keyId key = .ok receipt) :
    receipt.payload = payload ∧ receipt.payloadHash = canonicalHash codec payload ∧
      receipt.signature =
        String.ofList (hexEncode (codec.hmacSha256 key (canonicalHash codec payload))) := by
  rw [sign] at h
  split at h
  · cases h
  · cases h
    exact ⟨rfl, rfl, rfl⟩

theorem exists_sign (hkey : 16 ≤ key.length) :
    ∃ receipt, sign codec payload attestor keyId key = .ok receipt :=
  ⟨_, if_neg (by omega)⟩

theorem verify_of_sign (h : sign codec payload attestor keyId key = .ok receipt) :
    verify codec receipt key = .ok true := by
  obtain ⟨hpayload, hhash, hsignature⟩ := sign_eq_ok h
  rw [verify_eq_true_iff, hpayload, hhash, hsignature, String.toList_ofList,
    hexDecode_hexEncode]
  exact ⟨rfl, rfl⟩

theorem verify_relabelled (receipt : ProofReceipt) (attestor : AttestorKind) (keyId : String)
    (key : Bytes) :
    verify codec { receipt with attestor := attestor, keyId := keyId } key =
      verify codec receipt key := rfl

end

/-- **Tamper evidence.**  What `sign` returns is accepted; another receipt is accepted under
the key just when its payload, its payload hash and its signature are those that were signed. -/
theorem verify_signed_iff {codec : AttestationCodec} {payload : ProofReceiptPayload}
    {key : Bytes} (attestor : AttestorKind) (keyId : String)
    (htime : Function.Injective codec.timeText) (hkey : 16 ≤ key.length) :
    ∃ receipt, sign codec payload attestor keyId key = .ok receipt ∧
      verify codec receipt key = .ok true ∧
      ∀ receipt' : ProofReceipt, LowerCase receipt'.signature.toList →
        CollisionFree codec receipt'.payload payload →
        Unforged codec key receipt.payloadHash receipt' →
        (verify codec receipt' key = .ok true ↔
          receipt'.payload = receipt.payload ∧ receipt'.payloadHash = receipt.payloadHash ∧
            receipt'.signature = receipt.signature) := by
  have hexists : ∃ receipt, sign codec payload attestor keyId key = .ok receipt :=
    exists_sign hkey
  obtain ⟨receipt, hsign⟩ := hexists
  refine ⟨receipt, hsign, verify_of_sign hsign, ?_⟩
  intro receipt' hlower hcollision hunforged
  obtain ⟨hpayload, hhash, hsignature⟩ := sign_eq_ok hsign
  rw [verify_eq_true_iff]
  constructor
  · rintro ⟨hhash', htag⟩
    have hsigned := hunforged htag
    have heq : receipt'.payload = payload :=
      eq_of_canonicalHash htime hcollision (by rw [hhash', hsigned, hhash])
    refine ⟨heq.trans hpayload.symm, hsigned, ?_⟩
    -- without upper case the tag has one text
    have htext := hexEncode_of_hexDecode hlower htag
    rw [hsignature, ← hhash, ← hsigned, htext, String.ofList_toList]
  · rintro ⟨hpayload', hhash', hsignature'⟩
    have hverify := verify_eq_true_iff.mp (verify_of_sign hsign)
    rw [hpayload', hhash', hsignature']
    exact hverify

/-! ## A receipt with real hashes -/

def samplePayload (candidateRevision : String) : ProofReceiptPayload where
  schemaVersion := 1
  project := "LocalView"
  baselineRevision := "a"
  candidateRevision := candidateRevision
  environmentHash := "env"
  planHash := "plan"
  evidenceHashes := ["ev"]
  contractHashes := []
  mutationRunHash := none
  verdict := .pass
  createdAt := 1000000000

def sampleKey : Bytes := "0123456789abcdef0123456789abcdef".toList.map fun c =>
  UInt8.ofNat c.toNat

def sampleText (candidateRevision : String) : String :=
  "\x7b\"baseline_revision\":\"a\",\"candidate_revision\":\"" ++ candidateRevision ++
    "\",\"contract_hashes\":[],\"created_at\":\"1970-01-01T00:00:01Z\"," ++
    "\"environment_hash\":\"env\",\"evidence_hashes\":[\"ev\"]," ++
    "\"mutation_run_hash\":null,\"plan_hash\":\"plan\",\"project\":\"LocalView\"," ++
    "\"schema_version\":1,\"verdict\":\"pass\"\x7d"

/-- RFC 3339 at one second; elsewhere some text of its own. -/
def sampleTimeText (time : Timestamp) : String :=
  if time = 1000000000 then "1970-01-01T00:00:01Z"
  else if 0 ≤ time then String.ofList ('+' :: List.replicate time.toNat '0')
  else String.ofList ('-' :: List.replicate (-time).toNat '0')

/-- The time read back. -/
def sampleTime (text : String) : Timestamp :=
  match text.toList with
  | '+' :: digits => digits.length
  | '-' :: digits => -digits.length
  | _ => 1000000000

def sampleHash (candidateRevision : String) : String :=
  if candidateRevision = "b" then
    "0d09861d26c593c775c8837cf702d907e53624b1ab5a14653db1384fcf690941"
  else "61f476ea9e0be27ad90b9452a1059f84c777774759870efae2ca5a5cb99753d4"

/-- SHA-256 where the sample needs it; elsewhere some text of its own. -/
def sampleSha256 (text : List Char) : String :=
  if text = (sampleText "b").toList then sampleHash "b"
  else if text = (sampleText "tampered").toList then sampleHash "tampered"
  else String.ofList ('#' :: text)

/-- The text read back. -/
def sampleSource (hash : String) : List Char :=
  if hash = sampleHash "b" then (sampleText "b").toList
  else if hash = sampleHash "tampered" then (sampleText "tampered").toList
  else hash.toList.tail

def sampleTag : Bytes :=
  (hexDecode
    "ad12c3f2974bd1ef1544e04b15b67a1bcb0b81a389dc6b8519c6181f0637f87b".toList).getD []

def sampleCodec : AttestationCodec where
  sha256Hex := sampleSha256
  hmacSha256 key message :=
    if key = sampleKey ∧ message = "sha256:" ++ sampleHash "b" then sampleTag else []
  timeText := sampleTimeText

theorem sampleSha256_injective : Function.Injective sampleSha256 := by
  have hback : Function.LeftInverse sampleSource sampleSha256 := by
    intro text
    rw [sampleSha256]
    split
    case isTrue hsigned => rw [sampleSource, if_pos rfl, hsigned]
    split
    case isTrue htampered =>
      rw [sampleSource, if_neg (by decide +kernel), if_pos rfl, htampered]
    case isFalse =>
      have hother : ∀ hash : String, hash.toList.head? ≠ some '#' →
          String.ofList ('#' :: text) ≠ hash := by
        rintro hash hhead rfl
        exact hhead (by rw [String.toList_ofList, head?_cons])
      rw [sampleSource, if_neg (hother _ (by decide +kernel)),
        if_neg (hother _ (by decide +kernel)), String.toList_ofList, tail_cons]
  exact hback.injective

theorem sampleTimeText_injective : Function.Injective sampleTimeText := by
  have hback : Function.LeftInverse sampleTime sampleTimeText := by
    intro time
    rw [sampleTimeText]
    split
    case isTrue hsecond =>
      rw [hsecond]
      rfl
    split
    case isTrue hpos =>
      rw [sampleTime, String.toList_ofList]
      change ((List.replicate time.toNat '0').length : Int) = time
      rw [length_replicate]
      exact Int.toNat_of_nonneg hpos
    case isFalse hneg =>
      rw [sampleTime, String.toList_ofList]
      change -((List.replicate (-time).toNat '0').length : Int) = time
      rw [length_replicate]
      have hnonneg : 0 ≤ -time := Int.neg_nonneg_of_nonpos (Int.le_of_lt (Int.not_le.mp hneg))
      rw [Int.toNat_of_nonneg hnonneg, Int.neg_neg]
  exact hback.injective

/-- The sample is accepted as it was signed, and not with another candidate revision. -/
theorem verify_signed_iff_tampered :
    ∃ receipt, sign sampleCodec (samplePayload "b") .local "local" sampleKey = .ok receipt ∧
      verify sampleCodec receipt sampleKey = .ok true ∧
      verify sampleCodec { receipt with payload := samplePayload "tampered" } sampleKey ≠
        .ok true := by
  obtain ⟨receipt, hsign, hverify, hothers⟩ :=
    @verify_signed_iff sampleCodec (samplePayload "b") sampleKey .local "local"
      sampleTimeText_injective (by decide)
  refine ⟨receipt, hsign, hverify, ?_⟩
  obtain ⟨hpayload, -, hsignature⟩ := sign_eq_ok hsign
  have hlower : LowerCase receipt.signature.toList := by
    rw [hsignature, String.toList_ofList]
    exact lowerCase_hexEncode _
  intro haccepted
  have hsame := (hothers { receipt with payload := samplePayload "tampered" } hlower
    (collisionFree_of_injective sampleSha256_injective) (fun _ => rfl)).mp haccepted
  exact absurd (hsame.1.trans hpayload) (by simp [samplePayload])

theorem relabelled_accepted : ¬ ∀ (codec : AttestationCodec) payload attestor keyId key receipt,
      Function.Injective codec.timeText → 16 ≤ key.length →
      sign codec payload attestor keyId key = .ok receipt →
      ∀ receipt' : ProofReceipt, LowerCase receipt'.signature.toList →
        CollisionFree codec receipt'.payload payload →
        Unforged codec key receipt.payloadHash receipt' → receipt' ≠ receipt →
        verify codec receipt' key ≠ .ok true := by
  intro hall
  have hexists : ∃ receipt,
      sign sampleCodec (samplePayload "b") .local "local" sampleKey = .ok receipt :=
    exists_sign (by decide)
  obtain ⟨receipt, hsign⟩ := hexists
  obtain ⟨hpayload, -, hsignature⟩ := sign_eq_ok hsign
  refine hall sampleCodec _ _ _ _ receipt sampleTimeText_injective (by decide) hsign
    { receipt with attestor := .ci, keyId := "ci" } ?_ ?_ (fun _ => rfl) ?_ ?_
  · rw [hsignature, String.toList_ofList]
    exact lowerCase_hexEncode _
  · intro _
    rw [hpayload]
  · intro heq
    have hattestor : receipt.attestor = .local := by
      rw [sign] at hsign
      exact (Except.ok.inj hsign) ▸ rfl
    rw [← heq] at hattestor
    cases hattestor
  · rw [verify_relabelled]
    exact verify_of_sign hsign

end Attestation
end Localview
