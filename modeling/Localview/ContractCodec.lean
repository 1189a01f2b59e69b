import Localview.PostconditionContracts

/-! # The contract reference codec

A reference decodes to a contract exactly when the contract keeps the rules of its schema
and the reference is its encoding: what is decoded is encoded again and compared, and
what is encoded is read back member by member.  So no two contracts have one reference,
of one schema or of two.
-/
namespace Localview
open EarlyReturn JsonText List OrderedMap NativeSemanticNodeMatcher
  NativeSemanticPostconditionContractV2 JsonDoc

/-! ## What is decoded is an encoding -/

section
variable {json : JsonReader} {contractRef : String}

theorem toContractRef_of_nativeV1 {c : NativeSemanticPostconditionContractV1}
    (h : NativeSemanticPostconditionContractV1.fromContractRef json contractRef = .ok c) :
    c.toContractRef = .ok contractRef := by
  simp only [NativeSemanticPostconditionContractV1.fromContractRef, bind_eq_ok, rejectIf_eq_ok,
    exists_const, ne_eq, not_not] at h
  obtain ⟨payload, -, value, -, object, -, -, expectation, -, parsed, -, matcherValue, -, m, -,
    canonical, hcanonical, heq, hc⟩ := h
  cases hc
  rw [hcanonical, heq]

theorem toContractRef_of_nativeV2 {c : NativeSemanticPostconditionContractV2}
    (h : fromContractRef json contractRef = .ok c) :
    c.toContractRef = .ok contractRef := by
  simp only [fromContractRef, bind_eq_ok, rejectIf_eq_ok,
    exists_const, ne_eq, not_not] at h
  obtain ⟨payload, -, value, -, object, -, -, count, -, comparison, -, parsed, -, matcherValue, -,
    m, -, canonical, hcanonical, heq, hc⟩ := h
  cases hc
  rw [hcanonical, heq]

theorem toContractRef_of_payloadEqualityV1 {c : PayloadEqualityPostconditionContractV1}
    (h : PayloadEqualityPostconditionContractV1.fromContractRef json contractRef = .ok c) :
    c.toContractRef = .ok contractRef := by
  simp only [PayloadEqualityPostconditionContractV1.fromContractRef, bind_eq_ok, rejectIf_eq_ok,
    exists_const, ne_eq, not_not] at h
  obtain ⟨payload, -, value, -, object, -, -, payloadRef, -, -, mode, -, parsed, -, canonical,
    hcanonical, heq, hc⟩ := h
  cases hc
  rw [hcanonical, heq]

theorem toContractRef_of_webV1 {c : WebSemanticPostconditionContractV1}
    (h : WebSemanticPostconditionContractV1.fromContractRef json contractRef = .ok c) :
    c.toContractRef = .ok contractRef := by
  simp only [WebSemanticPostconditionContractV1.fromContractRef, bind_eq_ok, rejectIf_eq_ok,
    exists_const, ne_eq, not_not] at h
  obtain ⟨payload, -, value, -, object, -, -, reference, -, expectation, -, parsed, -, -, canonical,
    hcanonical, heq, hc⟩ := h
  cases hc
  rw [hcanonical, heq]

end

/-! ## Members are read back -/

section
variable {κ α β : Type} [BEq κ]

theorem lookup_map_snd (l : List (κ × α)) (f : α → β) (k : κ) :
    (l.map fun e => (e.1, f e.2)).lookup k = (l.lookup k).map f := by
  induction l with
  | nil => rfl
  | cons e l ih =>
    rw [map_cons, lookup_cons, lookup_cons]
    by_cases h : (k == e.1) = true
    · simp only [h, Option.map_some]
    · rw [Bool.not_eq_true] at h
      simp only [h, ih]

end

def ReadsAs (object : List (String × Json)) (written : List (String × JsonDoc)) : Prop :=
  ∀ key, object.lookup key = (written.lookup key).map value

section
variable {written : List (String × JsonDoc)}

theorem keys_membersValue : (membersValue written).map Prod.fst = written.map Prod.fst := by
  rw [membersValue_eq_map, map_map]
  rfl

/-- Whatever is written reads as its fields. -/
theorem readsAs_of_nodup (h : (written.map Prod.fst).Nodup) :
    ReadsAs (OrderedMap.ofList (membersValue written)).entries written := by
  intro key
  have hget := get_ofList
    (by rwa [keys_membersValue] : ((membersValue written).map Prod.fst).Nodup) (k := key)
  rw [OrderedMap.get, membersValue_eq_map, lookup_map_snd] at hget
  rw [membersValue_eq_map]
  exact hget

/-- A map reads as the fields that were put in it. -/
theorem readsAs_docOfMap (h : (written.map Prod.fst).Nodup) :
    ReadsAs (OrderedMap.ofList (membersValue (OrderedMap.ofList written).entries)).entries
      written := by
  intro key
  rw [readsAs_of_nodup (nodup_keys _) key]
  exact congrArg _ (get_ofList h)

/-- Members written in key order are read in that order. -/
theorem entries_ofList_sorted {ν : Type} {members : List (String × ν)}
    (h : (members.map Prod.fst).Pairwise (· < ·)) :
    (OrderedMap.ofList members).entries = members :=
  congrArg OrderedMap.entries (ofList_entries ⟨members, h⟩)

theorem membersDepth_le {n : Nat} (h : ∀ member ∈ written, member.2.depth ≤ n) :
    membersDepth written ≤ n := by
  induction written with
  | nil => exact Nat.zero_le n
  | cons member rest ih =>
    rw [membersDepth]
    exact max_le (h member mem_cons_self)
      (ih fun m hm => h m (mem_cons_of_mem _ hm))

end

/-! ## Matchers -/

namespace NativeSemanticNodeMatcher
variable {m : NativeSemanticNodeMatcher} {object : List (String × Json)}

theorem lookup_optionalField {key k : String} {doc : Option JsonDoc} :
    (optionalField key doc).lookup k = if k = key then doc else none := by
  cases doc with
  | none => simp [optionalField]
  | some doc =>
    by_cases h : k = key
    · simp [optionalField, h]
    · simp [optionalField, h, lookup_cons, beq_eq_false_iff_ne.mpr h]

theorem keys_optionalField_sublist (key : String) (doc : Option JsonDoc) :
    ((optionalField key doc).map Prod.fst).Sublist [key] := by
  cases doc with
  | none => exact nil_sublist _
  | some doc => exact List.Sublist.refl _

/-- The fields are among those allowed, each once. -/
theorem keys_fields_sublist (m : NativeSemanticNodeMatcher) :
    (m.fields.map Prod.fst).Sublist allowed := by
  simp only [fields, map_append]
  exact (((((((keys_optionalField_sublist _ _).append (keys_optionalField_sublist _ _)).append
    (keys_optionalField_sublist _ _)).append (keys_optionalField_sublist _ _)).append
    (keys_optionalField_sublist _ _)).append (keys_optionalField_sublist _ _)).append
    (keys_optionalField_sublist _ _)).append (keys_optionalField_sublist _ _)

theorem nodup_fields (m : NativeSemanticNodeMatcher) : (m.fields.map Prod.fst).Nodup :=
  (keys_fields_sublist m).nodup (by decide)

theorem optionalString_written (v : Option String) :
    optionalString ((v.map str).map value) = .ok v := by
  cases v <;> rfl

theorem optionalBool_written (v : Option Bool) :
    optionalBool ((v.map bool).map value) = .ok v := by
  cases v <;> rfl

theorem attributeValues_strings (entries : List (String × String)) :
    attributeValues (entries.map fun e => (e.1, .string e.2)) = .ok entries := by
  induction entries with
  | nil => rfl
  | cons e rest ih =>
    rw [map_cons, attributeValues, ih]
    rfl

/-- Attributes that are written are read as the strings they are. -/
theorem value_attributesDoc (attributes : OrderedMap String String) :
    (attributesDoc attributes).value = .object (attributes.entries.map fun e => (e.1, .string e.2)) := by
  have hmembers : membersValue (attributes.entries.map fun e => (e.1, .str e.2)) =
      attributes.entries.map fun e => (e.1, .string e.2) := by
    rw [membersValue_eq_map, map_map]
    rfl
  have hsorted : ((attributes.entries.map fun e => (e.1, Json.string e.2)).map
      Prod.fst).Pairwise (· < ·) := by
    rw [map_map]
    exact attributes.sorted
  rw [attributesDoc, value, hmembers, entries_ofList_sorted hsorted]

/-- **A matcher is read from its fields.** -/
theorem parseMatcher_of_readsAs (h : ReadsAs object m.fields) :
    parseMatcher (.object object) = .ok m := by
  have hkeys : ¬ ∃ member ∈ object, member.1 ∉ allowed := by
    rintro ⟨member, hmem, hnot⟩
    have hsome := lookup_isSome_iff.mpr ⟨member, hmem, beq_self_eq_true member.1⟩
    rw [h, Option.isSome_map] at hsome
    have hkey : member.1 ∈ m.fields.map Prod.fst := by
      by_contra hno
      rw [lookup_eq_none hno] at hsome
      cases hsome
    exact hnot ((keys_fields_sublist m).subset hkey)
  have hattributes : parseAttributes (object.lookup "attributes") = .ok m.attributes.entries := by
    have hread : object.lookup "attributes" =
        (if m.attributes.entries.isEmpty then none
          else some (attributesDoc m.attributes)).map value := by
      rw [h]
      simp [fields, lookup_append, lookup_optionalField]
    rw [hread]
    by_cases hempty : m.attributes.entries.isEmpty
    · rw [if_pos hempty, isEmpty_iff.mp hempty]
      rfl
    · rw [if_neg hempty, Option.map_some, value_attributesDoc]
      exact attributeValues_strings m.attributes.entries
  have hstring : ∀ {key v}, m.fields.lookup key = Option.map str v →
      optionalString (object.lookup key) = .ok v := by
    intro key v hv
    rw [h, hv]
    exact optionalString_written v
  have hbool : ∀ {key v}, m.fields.lookup key = Option.map bool v →
      optionalBool (object.lookup key) = .ok v := by
    intro key v hv
    rw [h, hv]
    exact optionalBool_written v
  simp only [parseMatcher, bind_eq_ok, okOr_eq_ok, rejectIf_eq_ok, exists_const]
  refine ⟨object, rfl, hkeys, m.attributes.entries, hattributes, m.role, hstring ?_, m.name,
    hstring ?_, m.controlType, hstring ?_, m.automationId, hstring ?_, m.className, hstring ?_,
    m.isEnabled, hbool ?_, m.isOffscreen, hbool ?_, ?_⟩
  all_goals try simp [fields, lookup_append, lookup_optionalField]
  rw [ofList_entries]
  rfl

theorem fromJson_of_readsAs (h : ReadsAs object m.fields) (hempty : m.isEmpty = false) :
    fromJson (.object object) = .ok m := by
  simp only [fromJson, bind_eq_ok, rejectIf_eq_ok, exists_const]
  exact ⟨m, parseMatcher_of_readsAs h, by rw [hempty]; exact Bool.false_ne_true, rfl⟩

theorem depth_fields (m : NativeSemanticNodeMatcher) : ∀ field ∈ m.fields, field.2.depth ≤ 1 := by
  have hfield : ∀ {key} {doc : Option JsonDoc}, (∀ d, doc = some d → d.depth ≤ 1) →
      ∀ field ∈ optionalField key doc, field.2.depth ≤ 1 := by
    intro key doc hdoc field hmem
    obtain ⟨d, hd, rfl⟩ := mem_map.mp hmem
    exact hdoc d (Option.mem_toList.mp hd)
  have hstring : ∀ {v : Option String}, ∀ d, v.map str = some d → d.depth ≤ 1 := by
    rintro v d hd
    obtain ⟨s, -, rfl⟩ := Option.map_eq_some_iff.mp hd
    exact Nat.zero_le 1
  have hbool : ∀ {v : Option Bool}, ∀ d, v.map bool = some d → d.depth ≤ 1 := by
    rintro v d hd
    obtain ⟨b, -, rfl⟩ := Option.map_eq_some_iff.mp hd
    exact Nat.zero_le 1
  have hattributes : ∀ d, (if m.attributes.entries.isEmpty then none
      else some (attributesDoc m.attributes)) = some d → d.depth ≤ 1 := by
    intro d hd
    split_ifs at hd
    cases hd
    have hflat : membersDepth (m.attributes.entries.map fun e => (e.1, str e.2)) ≤ 0 := by
      refine membersDepth_le fun member hmem => ?_
      obtain ⟨e, -, rfl⟩ := mem_map.mp hmem
      exact Nat.le_refl 0
    rw [attributesDoc, depth]
    omega
  intro field hmem
  simp only [fields, mem_append] at hmem
  rcases hmem with ((((((hmem | hmem) | hmem) | hmem) | hmem) | hmem) | hmem) | hmem
  · exact hfield hstring field hmem
  · exact hfield hstring field hmem
  · exact hfield hstring field hmem
  · exact hfield hstring field hmem
  · exact hfield hstring field hmem
  · exact hfield hbool field hmem
  · exact hfield hbool field hmem
  · exact hfield hattributes field hmem

theorem depth_toJson (m : NativeSemanticNodeMatcher) : m.toJson.depth ≤ 2 := by
  have hmembers : membersDepth (OrderedMap.ofList m.fields).entries ≤ 1 := by
    refine membersDepth_le fun member hmem => ?_
    -- what the map holds is one of the fields
    have hget := get_ofList (nodup_fields m) (k := member.1)
    rw [OrderedMap.mem_entries.mp hmem] at hget
    exact depth_fields m _ ((mem_iff_lookup (nodup_fields m)).mpr hget.symm)
  rw [toJson, docOfMap, depth]
  omega

end NativeSemanticNodeMatcher

/-! ## What is encoded is decoded -/

theorem stripPrefix_append (lead text : List Char) : stripPrefix lead (lead ++ text) = some text := by
  rw [stripPrefix, if_pos (List.isPrefixOf_iff_prefix.mpr (prefix_append lead text)),
    drop_left]

section
variable (json : JsonReader) {contractRef : String}

theorem payloadForVersion_append {ε : Type} (expected familyLead text : List Char)
    (unsupportedVersion : String → ε) (unsupportedFamily : ε) :
    payloadForVersion expected familyLead unsupportedVersion unsupportedFamily
      (String.ofList (expected ++ text)).toList = .ok text := by
  rw [String.toList_ofList, payloadForVersion, stripPrefix_append]

theorem parse_expectation {ε : Type} (e : ε) (expectation : PostconditionExpectation) :
    PostconditionExpectation.parse e (.string expectation.asStr) = .ok expectation := by
  cases expectation <;> rfl

theorem parse_comparison (comparison : NativeSemanticCountComparisonV2) :
    NativeSemanticCountComparisonV2.parse (.string comparison.asStr) = .ok comparison := by
  cases comparison <;> rfl

theorem parse_mode (mode : SetValueMode) : SetValueMode.parse (.string mode.asStr) = .ok mode := by
  cases mode <;> rfl

/-- Members written in key order are read as an object of them. -/
theorem value_obj_sorted {members : List (String × JsonDoc)}
    (h : (members.map Prod.fst).Pairwise (· < ·)) :
    (obj members).value = .object (membersValue members) := by
  rw [value, entries_ofList_sorted (by rwa [keys_membersValue])]

/-- Two strings written in key order are read back. -/
theorem fromStr_strings (json : JsonReader) {first second : String} (hlt : first < second)
    (a b : String) :
    json.fromStr (obj [(first, .str a), (second, .str b)]).text =
      some (.object [(first, .string a), (second, .string b)]) := by
  rw [json.fromStr_text _ (by simp [depth, membersDepth, jsonDepthLimit]),
    value_obj_sorted (by simpa using hlt)]
  rfl

theorem fromContractRef_of_nativeV1 {c : NativeSemanticPostconditionContractV1}
    (h : c.toContractRef = .ok contractRef) :
    NativeSemanticPostconditionContractV1.fromContractRef json contractRef = .ok c := by
  have hc := h
  simp only [NativeSemanticPostconditionContractV1.toContractRef, bind_eq_ok, rejectIf_eq_ok,
    exists_const, Bool.not_eq_true] at h
  obtain ⟨hempty, href⟩ := h
  obtain rfl := Except.ok.inj href
  have hsorted : ∀ {a b : JsonDoc}, ([("expectation", a), ("matcher", b)].map
      Prod.fst).Pairwise (· < ·) := by
    intro a b
    simp only [map_cons, map_nil]
    decide
  have hdoc : docOfMap [("expectation", .str c.expectation.asStr), ("matcher", c.matcher.toJson)] =
      .obj [("expectation", .str c.expectation.asStr), ("matcher", c.matcher.toJson)] := by
    rw [docOfMap, entries_ofList_sorted hsorted]
  rw [hdoc] at hc ⊢
  have hdepth : (obj [("expectation", .str c.expectation.asStr),
      ("matcher", c.matcher.toJson)]).depth ≤ jsonDepthLimit := by
    have hfields := depth_toJson c.matcher
    simp only [depth, membersDepth, jsonDepthLimit]
    omega
  have hvalue := json.fromStr_text _ hdepth
  rw [value_obj_sorted hsorted] at hvalue
  have hmatcher := fromJson_of_readsAs
    (readsAs_docOfMap (nodup_fields c.matcher)) hempty
  simp only [NativeSemanticPostconditionContractV1.fromContractRef, bind_eq_ok, okOr_eq_ok,
    rejectIf_eq_ok, exists_const]
  refine ⟨_, payloadForVersion_append _ _ _ _ _, _, hvalue, _, rfl, ?_, _, rfl, c.expectation,
    parse_expectation _ _, _, rfl, c.matcher, hmatcher, _, hc, ?_, rfl⟩
  · simp [membersValue, lookup_cons]
  · exact fun hne => hne rfl

theorem fromContractRef_of_nativeV2 {c : NativeSemanticPostconditionContractV2}
    (h : c.toContractRef = .ok contractRef) :
    fromContractRef json contractRef = .ok c := by
  have hc := h
  simp only [toContractRef,
    toCanonicalJson, bind_eq_ok, rejectIf_eq_ok, exists_const,
    Bool.not_eq_true] at h
  obtain ⟨_, ⟨hempty, hfields⟩, href⟩ := h
  cases hfields
  obtain rfl := Except.ok.inj href
  have hsorted : ∀ {a b c : JsonDoc}, ([("comparison", a), ("count", b), ("matcher", c)].map
      Prod.fst).Pairwise (· < ·) := by
    intro a b c
    simp only [map_cons, map_nil]
    decide
  have hdepth : (obj [("comparison", .str c.comparison.asStr),
      ("count", .nat c.count.toUInt64), ("matcher", .obj c.matcher.fields)]).depth ≤
        jsonDepthLimit := by
    have hfields := membersDepth_le (depth_fields c.matcher)
    simp only [depth, membersDepth, jsonDepthLimit]
    omega
  have hvalue := json.fromStr_text _ hdepth
  rw [value_obj_sorted hsorted] at hvalue
  have hmatcher := fromJson_of_readsAs
    (readsAs_of_nodup (nodup_fields c.matcher)) hempty
  have hlt : c.count.toNat < 2 ^ 32 := c.count.toNat_lt
  have hcount : ((((membersValue [("comparison", .str c.comparison.asStr),
      ("count", .nat c.count.toUInt64), ("matcher", .obj c.matcher.fields)]).lookup
        "count").bind jsonAsU64).filter fun n => n < 2 ^ 32) = some c.count.toNat := by
    have hread : (membersValue [("comparison", .str c.comparison.asStr),
        ("count", .nat c.count.toUInt64), ("matcher", .obj c.matcher.fields)]).lookup "count" =
          some (.number (some c.count.toNat)) := by
      simp [membersValue, lookup_cons, value]
    rw [hread, Option.bind_some, jsonAsU64, Option.filter_some, if_pos (decide_eq_true hlt)]
  have hback : mk c.comparison (UInt32.ofNat c.count.toNat)
      c.matcher = c := by
    rw [UInt32.ofNat_toNat]
  have hcanonical := (congrArg toContractRef hback).trans hc
  simp only [fromContractRef, bind_eq_ok, okOr_eq_ok,
    rejectIf_eq_ok, exists_const]
  refine ⟨_, payloadForVersion_append _ _ _ _ _, _, hvalue, _, rfl, ?_, _, hcount, _, rfl,
    c.comparison, parse_comparison _, _, rfl, c.matcher, hmatcher, _, hcanonical, ?_,
    congrArg Except.ok hback⟩
  · simp [membersValue, lookup_cons]
  · exact fun hne => hne rfl

theorem fromContractRef_of_payloadEqualityV1 {c : PayloadEqualityPostconditionContractV1}
    (h : c.toContractRef = .ok contractRef) :
    PayloadEqualityPostconditionContractV1.fromContractRef json contractRef = .ok c := by
  have hc := h
  simp only [PayloadEqualityPostconditionContractV1.toContractRef, bind_eq_ok, rejectIf_eq_ok,
    exists_const] at h
  obtain ⟨huuid, href⟩ := h
  obtain rfl := Except.ok.inj href
  have hvalue := fromStr_strings json (by decide : "mode" < "payload_ref") c.mode.asStr c.payloadRef
  simp only [PayloadEqualityPostconditionContractV1.fromContractRef, bind_eq_ok, okOr_eq_ok,
    rejectIf_eq_ok, exists_const]
  refine ⟨_, payloadForVersion_append _ _ _ _ _, _, hvalue, _, rfl, ?_, c.payloadRef, rfl, huuid, _,
    rfl, c.mode, parse_mode _, _, hc, ?_, rfl⟩
  · simp [lookup_cons]
  · exact fun hne => hne rfl

theorem fromContractRef_of_webV1 {c : WebSemanticPostconditionContractV1}
    (h : c.toContractRef = .ok contractRef) :
    WebSemanticPostconditionContractV1.fromContractRef json contractRef = .ok c := by
  have hc := h
  simp only [WebSemanticPostconditionContractV1.toContractRef, bind_eq_ok, rejectIf_eq_ok,
    exists_const] at h
  obtain ⟨hvalid, href⟩ := h
  obtain rfl := Except.ok.inj href
  have hvalue := fromStr_strings json (by decide : "expectation" < "ref") c.expectation.asStr
    c.reference
  simp only [WebSemanticPostconditionContractV1.fromContractRef, bind_eq_ok, okOr_eq_ok,
    rejectIf_eq_ok, exists_const]
  refine ⟨_, payloadForVersion_append _ _ _ _ _, _, hvalue, _, rfl, ?_, c.reference, rfl, _, rfl,
    c.expectation, parse_expectation _ _, hvalid, _, hc, ?_, rfl⟩
  · simp [lookup_cons]
  · exact fun hne => hne rfl

end

/-! ## Headers -/

theorem splitOnce_append {c : Char} {before after : List Char} (h : c ∉ before) :
    splitOnce c (before ++ c :: after) = (before, some after) := by
  have hbefore : ∀ a ∈ before, (decide (a ≠ c)) = true := by
    intro a ha
    rw [decide_eq_true_iff]
    rintro rfl
    exact h ha
  rw [splitOnce, takeWhile_append_of_pos hbefore, dropWhile_append_of_pos hbefore,
    takeWhile_cons_of_neg (by simp), dropWhile_cons_of_neg (by simp), append_nil]
  rfl

/-- The header of a schema and a payload. -/
def withHeader (family version payload : List Char) : List Char :=
  contractRootPrefix ++ (family ++ ':' :: ('v' :: version ++ ':' :: payload))

theorem parseRegistryHeader_withHeader {family version payload : List Char} (hfamily : family ≠ [])
    (hfamilyColon : ':' ∉ family) (hversion : version ≠ []) (hversionColon : ':' ∉ version)
    (hpayload : payload ≠ []) :
    parseRegistryHeader (withHeader family version payload) =
      .ok (String.ofList family, String.ofList version) := by
  have htag : ':' ∉ 'v' :: version := by
    rw [mem_cons, not_or]
    exact ⟨by decide, hversionColon⟩
  have hlength : ¬ (('v' :: version).head? ≠ some 'v' ∨ ('v' :: version).length ≤ 1) := by
    have hpos := length_pos_of_ne_nil hversion
    rw [length_cons]
    rintro (hhead | hshort)
    · exact hhead rfl
    · omega
  have hfirst := @splitOnce_append ':' family ('v' :: version ++ ':' :: payload) hfamilyColon
  have hsecond := @splitOnce_append ':' ('v' :: version) payload htag
  simp only [parseRegistryHeader, withHeader, stripPrefix_append, bind_eq_ok, okOr_eq_ok,
    rejectIf_eq_ok, exists_const]
  refine ⟨_, rfl, ?_⟩
  rw [hfirst]
  refine ⟨hfamily, _, rfl, ?_⟩
  rw [hsecond]
  exact ⟨hlength, _, rfl, hpayload, rfl⟩

/-- A header that is written out, and what follows it. -/
theorem append_eq_withHeader {lead family version : List Char}
    (h : lead = withHeader family version []) (text : List Char) :
    lead ++ text = withHeader family version text := by
  rw [h]
  simp only [withHeader, append_assoc, cons_append, nil_append]

/-! ## The registry -/

/-- The payload of a contract, as it is written. -/
def RegisteredPostconditionContract.payload : RegisteredPostconditionContract → JsonDoc
  | .nativeSemanticV1 c =>
      docOfMap [("expectation", .str c.expectation.asStr), ("matcher", c.matcher.toJson)]
  | .nativeSemanticV2 c => .obj [("comparison", .str c.comparison.asStr),
      ("count", .nat c.count.toUInt64), ("matcher", .obj c.matcher.fields)]
  | .payloadEqualityV1 c => .obj [("mode", .str c.mode.asStr), ("payload_ref", .str c.payloadRef)]
  | .webSemanticV1 c => .obj [("expectation", .str c.expectation.asStr), ("ref", .str c.reference)]

def RegisteredPostconditionContract.schema :
    RegisteredPostconditionContract → PostconditionContractSchema
  | .nativeSemanticV1 _ => ⟨"native-semantic", "1"⟩
  | .nativeSemanticV2 _ => ⟨"native-semantic", "2"⟩
  | .payloadEqualityV1 _ => ⟨"payload-equality", "1"⟩
  | .webSemanticV1 _ => ⟨"web-semantic", "1"⟩

section
variable {json : JsonReader} {contractRef : String} {c c' : RegisteredPostconditionContract}

/-- The headers of the four schemas. -/
theorem headers :
    contractPrefixV1 = withHeader "native-semantic".toList "1".toList [] ∧
    contractPrefixV2 = withHeader "native-semantic".toList "2".toList [] ∧
    payloadEqualityPrefixV1 = withHeader "payload-equality".toList "1".toList [] ∧
    webSemanticPrefixV1 = withHeader "web-semantic".toList "1".toList [] := by
  decide

theorem pure_eq_ok_iff {ε : Type} {text text' : String} :
    (pure text : Except ε String) = .ok text' ↔ text' = text :=
  ⟨fun h => (Except.ok.inj h).symm, fun h => congrArg Except.ok h.symm⟩

/-- **A contract that keeps the rules is encoded** under the header of its schema, and no
other is. -/
theorem toContractRef_eq_ok_iff : c.toContractRef = .ok contractRef ↔ c.Valid ∧
    contractRef = String.ofList
      (withHeader c.schema.family.toList c.schema.version.toList c.payload.text) := by
  cases c with
  | nativeSemanticV1 c =>
    simp only [RegisteredPostconditionContract.toContractRef, mapError_eq_ok,
      NativeSemanticPostconditionContractV1.toContractRef, bind_eq_ok, rejectIf_eq_ok,
      exists_const, Bool.not_eq_true, RegisteredPostconditionContract.Valid, pure_eq_ok_iff]
    rw [append_eq_withHeader headers.1]
    rfl
  | nativeSemanticV2 c =>
    simp only [RegisteredPostconditionContract.toContractRef, mapError_eq_ok,
      toContractRef, toCanonicalJson,
      bind_eq_ok, rejectIf_eq_ok, exists_const, Bool.not_eq_true,
      RegisteredPostconditionContract.Valid, pure_eq_ok_iff]
    constructor
    · rintro ⟨fields, ⟨hempty, hfields⟩, href⟩
      cases hfields
      rw [append_eq_withHeader headers.2.1] at href
      exact ⟨hempty, href⟩
    · rintro ⟨hempty, href⟩
      refine ⟨.obj c.matcher.fields, ⟨hempty, rfl⟩, ?_⟩
      rw [append_eq_withHeader headers.2.1]
      exact href
  | payloadEqualityV1 c =>
    simp only [RegisteredPostconditionContract.toContractRef, mapError_eq_ok,
      PayloadEqualityPostconditionContractV1.toContractRef, bind_eq_ok, rejectIf_eq_ok,
      exists_const, Bool.not_eq_false, RegisteredPostconditionContract.Valid, pure_eq_ok_iff]
    rw [append_eq_withHeader headers.2.2.1]
    rfl
  | webSemanticV1 c =>
    simp only [RegisteredPostconditionContract.toContractRef, mapError_eq_ok,
      WebSemanticPostconditionContractV1.toContractRef, bind_eq_ok, rejectIf_eq_ok,
      exists_const, Bool.not_eq_false, RegisteredPostconditionContract.Valid, pure_eq_ok_iff]
    rw [append_eq_withHeader headers.2.2.2]
    rfl

open RegisteredPostconditionContract

/-- The registry reads the schema of what is encoded. -/
theorem parseRegistryHeader_toContractRef (h : c.toContractRef = .ok contractRef) :
    parseRegistryHeader contractRef.toList = .ok (c.schema.family, c.schema.version) := by
  obtain ⟨-, rfl⟩ := toContractRef_eq_ok_iff.mp h
  have hpayload : c.payload.text ≠ [] := by
    cases c <;> exact cons_ne_nil _ _
  have hfamily : c.schema.family.toList ≠ [] ∧ ':' ∉ c.schema.family.toList := by
    cases c <;> (simp only [schema]; decide)
  have hversion : c.schema.version.toList ≠ [] ∧ ':' ∉ c.schema.version.toList := by
    cases c <;> (simp only [schema]; decide)
  rw [String.toList_ofList, parseRegistryHeader_withHeader hfamily.1 hfamily.2 hversion.1 hversion.2
    hpayload, String.ofList_toList, String.ofList_toList]

/-- **What is encoded is decoded.** -/
theorem decodeContractRef_of_toContractRef (json : JsonReader) (h : c.toContractRef = .ok contractRef) :
    decodeContractRef json contractRef = .ok c := by
  have hregistered : c.schema ∈ standardSchemas := by
    cases c <;> (simp only [schema]; decide)
  simp only [decodeContractRef, bind_eq_ok, rejectIf_eq_ok, exists_const]
  refine ⟨_, parseRegistryHeader_toContractRef h, ?_, ?_, ?_⟩
  · exact fun hnone => hnone c.schema hregistered rfl
  · exact fun hnone => hnone c.schema hregistered ⟨rfl, rfl⟩
  · cases c with
    | nativeSemanticV1 c =>
      have hdecoded := fromContractRef_of_nativeV1 json (mapError_eq_ok.mp h)
      show decodeSchema json contractRef "native-semantic" "1" = _
      rw [decodeSchema, if_pos (by decide), hdecoded]
      rfl
    | nativeSemanticV2 c =>
      have hdecoded := fromContractRef_of_nativeV2 json (mapError_eq_ok.mp h)
      show decodeSchema json contractRef "native-semantic" "2" = _
      rw [decodeSchema, if_neg (by decide), if_pos (by decide), hdecoded]
      rfl
    | payloadEqualityV1 c =>
      have hdecoded := fromContractRef_of_payloadEqualityV1 json (mapError_eq_ok.mp h)
      show decodeSchema json contractRef "payload-equality" "1" = _
      rw [decodeSchema, if_neg (by decide), if_neg (by decide), if_pos (by decide), hdecoded]
      rfl
    | webSemanticV1 c =>
      have hdecoded := fromContractRef_of_webV1 json (mapError_eq_ok.mp h)
      show decodeSchema json contractRef "web-semantic" "1" = _
      rw [decodeSchema, if_neg (by decide), if_neg (by decide), if_neg (by decide), hdecoded]
      rfl

theorem map_eq_ok_iff {ε α β : Type} {x : Except ε α} {f : α → β} {b : β} :
    x.map f = .ok b ↔ ∃ a, x = .ok a ∧ f a = b := by
  cases x with
  | error e => simp [Except.map]
  | ok a => simp [Except.map]

/-- **What is decoded is encoded** as it was. -/
theorem toContractRef_of_decodeContractRef (h : decodeContractRef json contractRef = .ok c) :
    c.toContractRef = .ok contractRef := by
  simp only [decodeContractRef, bind_eq_ok, rejectIf_eq_ok, exists_const] at h
  obtain ⟨⟨family, version⟩, -, -, -, h⟩ := h
  simp only [decodeSchema] at h
  split_ifs at h
  all_goals obtain ⟨contract, hcontract, rfl⟩ := map_eq_ok_iff.mp (mapError_eq_ok.mp h)
  · exact mapError_eq_ok.mpr (toContractRef_of_nativeV1 hcontract)
  · exact mapError_eq_ok.mpr (toContractRef_of_nativeV2 hcontract)
  · exact mapError_eq_ok.mpr (toContractRef_of_payloadEqualityV1 hcontract)
  · exact mapError_eq_ok.mpr (toContractRef_of_webV1 hcontract)

end

/-- **The contract reference codec.**  A reference decodes to a contract if and only if
the contract keeps the rules of its schema and the reference is its encoding; and
contracts that keep the rules have encodings, different ones for different contracts. -/
theorem contract_reference_codec (json : JsonReader) :
    (∀ contractRef c, decodeContractRef json contractRef = .ok c ↔
      c.Valid ∧ c.toContractRef = .ok contractRef) ∧
    (∀ c : RegisteredPostconditionContract, c.Valid →
      ∃ contractRef, c.toContractRef = .ok contractRef) ∧
    (∀ c c' : RegisteredPostconditionContract, c.Valid → c'.Valid →
      c.toContractRef = c'.toContractRef → c = c') := by
  have hencoded : ∀ c : RegisteredPostconditionContract, c.Valid →
      ∃ contractRef, c.toContractRef = .ok contractRef :=
    fun c hvalid => ⟨_, toContractRef_eq_ok_iff.mpr ⟨hvalid, rfl⟩⟩
  refine ⟨fun contractRef c => ?_, hencoded, ?_⟩
  · constructor
    · intro h
      have hencoded := toContractRef_of_decodeContractRef h
      exact ⟨(toContractRef_eq_ok_iff.mp hencoded).1, hencoded⟩
    · rintro ⟨-, h⟩
      exact decodeContractRef_of_toContractRef json h
  · intro c c' hvalid hvalid' heq
    obtain ⟨contractRef, h⟩ := hencoded c hvalid
    have hdecoded := decodeContractRef_of_toContractRef json h
    have hdecoded' := decodeContractRef_of_toContractRef json (heq ▸ h)
    exact Except.ok.inj (hdecoded.symm.trans hdecoded')

theorem contract_reference_codec_webReference :
    decodeContractRef compactReader
      "lvpc:web-semantic:v1:\x7b\"expectation\":\"present\",\"ref\":\"@e1f\"\x7d" =
        .ok (.webSemanticV1 ⟨.present, "@e1f"⟩) :=
  ((contract_reference_codec compactReader).1 _ _).mpr
    ⟨(by decide +kernel : validWebReference "@e1f" = true), by decide +kernel⟩

/-- Another order of the members is refused. -/
example : decodeContractRef compactReader
    "lvpc:web-semantic:v1:\x7b\"ref\":\"@e1f\",\"expectation\":\"present\"\x7d" =
      .error (.webSemanticContract .nonCanonicalReference) := by decide +kernel

end Localview
