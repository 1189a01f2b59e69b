import Localview.EvidenceStore
import Localview.UxContracts

/-! # Facts compiled from evidence

`compile_runtime_facts`: items that may be used are put into the facts one after the other,
and those that make the facts weigh more are cited.  Sets of facts only grow, so that each
of their members is backed by a cited item.  A metric or a value, though, may be overwritten
and the count raised without any weight added: the facts are those of the cited items alone
exactly where no such change is lost (`Backed`).

JSON values are a parameter with what `serde_json` reads of them (`JsonAccess`).
-/
namespace Localview
open List OrderedSet

/-- What `serde_json` reads of a value. -/
class JsonAccess (F V : Type) where
  asObject : V → Option (OrderedMap String V)
  asArray : V → Option (List V)
  asStr : V → Option String
  asBool : V → Option Bool
  asF64 : V → Option F
  asU64 : V → Option Nat

/-- What is read of an item of evidence. -/
structure FactEvidence (V : Type) where
  id : EvidenceId
  payload : V
  revision : Option String
  uncertainty : UncertaintyClass
  secretTaint : Bool

section
variable {F V : Type} [Binary64 F] [JsonAccess F V]

/-! ## Payloads -/

open JsonAccess

variable (F) in
/-- The texts of an array, the empty ones left out. -/
def textsAt (object : OrderedMap String V) (key : String) : List String :=
  ((((object.get key).bind (asArray F)).getD []).filterMap
    (asStr F)).filter (· ≠ "")

variable (F) in
/-- A flag that is set. -/
def flagAt (object : OrderedMap String V) (key : String) : Bool :=
  ((object.get key).bind (asBool F)).getD false

def metricsOf (object : OrderedMap String V) : List (String × F) :=
  (((object.get "metrics").bind (asObject F)).getD .empty).entries.filterMap
    fun (key, value) =>
      ((asF64 value).filter fun number => Binary64.isFinite number).map (key, ·)

variable (F) in
def valuesOf (object : OrderedMap String V) : List (String × V) :=
  (((object.get "values").bind (asObject F)).getD .empty).entries

variable (F) in
/-- The count of unnamed elements, zero where there is none. -/
def countOf (object : OrderedMap String V) : Nat :=
  ((object.get "unnamed_interactive_count").bind (asU64 F)).getD 0

def insertAll {ν : Type} (m : OrderedMap String ν) (entries : List (String × ν)) :
    OrderedMap String ν :=
  entries.foldl (fun m entry => m.insert entry.1 entry.2) m

variable (F) in
/-- The kinds that a payload says are complete. -/
def completeOf (object : OrderedMap String V) : List RuntimeFactDomain :=
  [("selectors_complete", .selectors), ("metrics_complete", .metrics),
    ("values_complete", .values), ("issue_codes_complete", .issueCodes),
    ("interactive_names_complete", RuntimeFactDomain.interactiveNames)].filterMap
      fun (key, domain) => if flagAt F object key = true then some domain else none

/-- Kinds put into a set of kinds. -/
def insertDomains (domains : List RuntimeFactDomain) (new : List RuntimeFactDomain) :
    List RuntimeFactDomain :=
  new.foldl (fun domains domain => if domain ∈ domains then domains else domains ++ [domain]) domains

def compileFactPayload (object : OrderedMap String V) (output : LiveRuntimeFacts F V) :
    LiveRuntimeFacts F V :=
  { output with
    facts :=
      { selectors := output.facts.selectors.extend (textsAt F object "selectors")
        metrics := insertAll output.facts.metrics (metricsOf object)
        values := insertAll output.facts.values (valuesOf F object)
        issueCodes := output.facts.issueCodes.extend (textsAt F object "issue_codes")
        unnamedInteractiveCount := max output.facts.unnamedInteractiveCount (countOf F object) }
    completeDomains := insertDomains output.completeDomains (completeOf F object)
    metricKeys := output.metricKeys.extend ((metricsOf object).map fun entry : String × F => entry.1)
    valueKeys := output.valueKeys.extend ((valuesOf F object).map Prod.fst) }

def factWeight (facts : LiveRuntimeFacts F V) : Nat :=
  facts.facts.selectors.toList.length + facts.facts.metrics.entries.length +
    facts.facts.values.entries.length + facts.facts.issueCodes.toList.length +
    facts.metricKeys.toList.length + facts.valueKeys.toList.length +
    facts.completeDomains.length + if 0 < facts.facts.unnamedInteractiveCount then 1 else 0

/-- The facts, and the sets of ids, as the items are gone over. -/
structure FactTally (F V : Type) where
  output : LiveRuntimeFacts F V
  (evidenceIds stale tainted nonAuthoritative : OrderedSet EvidenceId)

/-- An item in the loop of `compile_runtime_facts`. -/
def FactTally.consider (revision : String) (tally : FactTally F V) (item : FactEvidence V) :
    FactTally F V :=
  if item.secretTaint = true then { tally with tainted := tally.tainted.insert item.id }
  else if item.revision ≠ some revision then { tally with stale := tally.stale.insert item.id }
  else if item.uncertainty ∉ [.observed, .derived] then
    { tally with nonAuthoritative := tally.nonAuthoritative.insert item.id }
  else
    match asObject F item.payload with
    | none => tally
    | some object =>
        let output := compileFactPayload object tally.output
        { tally with
          output
          evidenceIds :=
            if factWeight tally.output < factWeight output then tally.evidenceIds.insert item.id
            else tally.evidenceIds }

def compileRuntimeFacts (evidence : List (FactEvidence V)) (revision : String) :
    LiveRuntimeFacts F V :=
  let tally := evidence.foldl (FactTally.consider revision) ⟨.default, .empty, .empty, .empty, .empty⟩
  { tally.output with
    evidenceIds := tally.evidenceIds.toList
    staleEvidenceIds := tally.stale.toList
    ignoredTaintedEvidenceIds := tally.tainted.toList
    ignoredNonAuthoritativeEvidenceIds := tally.nonAuthoritative.toList }

/-! ## What items offer -/

/-- Something that facts may hold, whatever its value. -/
inductive RuntimeFact
  | selector (selector : String)
  | metric (key : String)
  | metricKey (key : String)
  | value (key : String)
  | valueKey (key : String)
  | issueCode (code : String)
  | complete (domain : RuntimeFactDomain)
  | unnamed
  deriving DecidableEq

variable (F) in
/-- What a payload has. -/
def offers (object : OrderedMap String V) : List RuntimeFact :=
  (textsAt F object "selectors").map RuntimeFact.selector ++
    (metricsOf object).map (fun entry : String × F => RuntimeFact.metric entry.1) ++
    (metricsOf object).map (fun entry : String × F => RuntimeFact.metricKey entry.1) ++
    (valuesOf F object).map (fun entry => RuntimeFact.value entry.1) ++
    (valuesOf F object).map (fun entry => RuntimeFact.valueKey entry.1) ++
    (textsAt F object "issue_codes").map RuntimeFact.issueCode ++
    (completeOf F object).map RuntimeFact.complete ++
    if 0 < countOf F object then [RuntimeFact.unnamed] else []

variable (F) in
/-- The payload of an item that may be used. -/
def usable (revision : String) (item : FactEvidence V) : Option (OrderedMap String V) :=
  if item.secretTaint = false ∧ item.revision = some revision ∧
      item.uncertainty ∈ [.observed, .derived] then
    asObject F item.payload
  else none

variable (F) in
/-- The ids of the items that have something that nothing before them had. -/
def introducing (revision : String) (seen : List RuntimeFact) :
    List (FactEvidence V) → List EvidenceId
  | [] => []
  | item :: rest =>
      match usable F revision item with
      | none => introducing revision seen rest
      | some object =>
          (if ∀ fact ∈ offers F object, fact ∈ seen then [] else [item.id]) ++
            introducing revision (seen ++ offers F object) rest

variable (F) in
/-- The payloads that are used, in order. -/
def payloads (revision : String) (evidence : List (FactEvidence V)) : List (OrderedMap String V) :=
  evidence.filterMap (usable F revision)

variable (F) in
def backing (revision : String) (evidence : List (FactEvidence V)) : List (FactEvidence V) :=
  evidence.filter fun item => item.id ∈ introducing F revision [] evidence

def lastEntry {ν : Type} (key : String) (entries : List (String × ν)) : Option ν :=
  ((entries.filter fun entry => entry.1 = key).getLast?).map Prod.snd

variable (F) in
/-- Each metric and each value is last given as it is last given by a backing item, and the
greatest count is that of one. -/
structure Backed (revision : String) (evidence : List (FactEvidence V)) : Prop where
  metrics : ∀ key, lastEntry key ((payloads F revision evidence).flatMap (metricsOf (F := F))) =
    lastEntry key ((payloads F revision (backing F revision evidence)).flatMap metricsOf)
  values : ∀ key, lastEntry key ((payloads F revision evidence).flatMap (valuesOf F)) =
    lastEntry key ((payloads F revision (backing F revision evidence)).flatMap (valuesOf F))
  count : ((payloads F revision evidence).map (countOf F)).foldl max 0 =
    ((payloads F revision (backing F revision evidence)).map (countOf F)).foldl max 0

/-- Facts that are read alike. -/
structure SameFacts (live live' : LiveRuntimeFacts F V) : Prop where
  selectors : ∀ s, s ∈ live.facts.selectors.toList ↔ s ∈ live'.facts.selectors.toList
  metrics : ∀ key, live.facts.metrics.get key = live'.facts.metrics.get key
  values : ∀ key, live.facts.values.get key = live'.facts.values.get key
  issueCodes : ∀ code, code ∈ live.facts.issueCodes.toList ↔ code ∈ live'.facts.issueCodes.toList
  unnamed : live.facts.unnamedInteractiveCount = live'.facts.unnamedInteractiveCount
  domains : ∀ domain, domain ∈ live.completeDomains ↔ domain ∈ live'.completeDomains
  metricKeys : ∀ key, key ∈ live.metricKeys.toList ↔ key ∈ live'.metricKeys.toList
  valueKeys : ∀ key, key ∈ live.valueKeys.toList ↔ key ∈ live'.valueKeys.toList

/-! ## Facts as they grow -/

/-- What facts hold, listed. -/
def held (live : LiveRuntimeFacts F V) : List RuntimeFact :=
  live.facts.selectors.toList.map RuntimeFact.selector ++
    live.facts.metrics.entries.map (fun entry => RuntimeFact.metric entry.1) ++
    live.facts.values.entries.map (fun entry => RuntimeFact.value entry.1) ++
    live.facts.issueCodes.toList.map RuntimeFact.issueCode ++
    live.metricKeys.toList.map RuntimeFact.metricKey ++
    live.valueKeys.toList.map RuntimeFact.valueKey ++
    live.completeDomains.map RuntimeFact.complete ++
    if 0 < live.facts.unnamedInteractiveCount then [RuntimeFact.unnamed] else []

variable {live live' : LiveRuntimeFacts F V} {object : OrderedMap String V}

omit [Binary64 F] [JsonAccess F V] in
theorem length_held : (held live).length = factWeight live := by
  unfold held factWeight
  simp only [length_append, length_map]
  split_ifs <;> rfl

omit [Binary64 F] [JsonAccess F V] in
theorem nodup_held (h : live.completeDomains.Nodup) : (held live).Nodup := by
  have hset : ∀ (s : OrderedSet String) (f : String → RuntimeFact), (∀ a b, f a = f b → a = b) →
      (s.toList.map f).Nodup := by
    intro s f hf
    have hnodup : s.toList.Nodup := s.sorted_toList.imp ne_of_lt
    exact hnodup.map hf
  have hkeys : ∀ {ν : Type} (m : OrderedMap String ν) (f : String → RuntimeFact),
      (∀ a b, f a = f b → a = b) → (m.entries.map fun entry => f entry.1).Nodup := by
    intro ν m f hf
    have hmapped := m.nodup_keys.map hf
    rwa [map_map] at hmapped
  have hunnamed : (if 0 < live.facts.unnamedInteractiveCount then
      [RuntimeFact.unnamed] else []).Nodup := by
    split_ifs
    · exact nodup_singleton _
    · exact nodup_nil
  have hdomains : (live.completeDomains.map RuntimeFact.complete).Nodup :=
    h.map fun _ _ => RuntimeFact.complete.inj
  have hmap : ∀ {α : Type} {l : List RuntimeFact} {items : List α} {f : α → RuntimeFact},
      (∀ x, f x ∉ l) → ∀ a ∈ l, ∀ b ∈ items.map f, a ≠ b := by
    intro α l items f hf a ha b hb heq
    obtain ⟨x, -, hx⟩ := mem_map.mp hb
    exact hf x (hx ▸ heq ▸ ha)
  have hlast : ∀ {l : List RuntimeFact}, .unnamed ∉ l → ∀ a ∈ l,
      ∀ b ∈ (if 0 < live.facts.unnamedInteractiveCount then [RuntimeFact.unnamed] else []),
        a ≠ b := by
    intro l hl a ha b hb heq
    split_ifs at hb
    · rw [heq, mem_singleton.mp hb] at ha
      exact hl ha
    · cases hb
  unfold held
  -- each part is free of repetitions, and the parts are of different kinds
  refine nodup_append.mpr ⟨nodup_append.mpr ⟨nodup_append.mpr
    ⟨nodup_append.mpr ⟨nodup_append.mpr ⟨nodup_append.mpr ⟨nodup_append.mpr
    ⟨hset _ _ fun _ _ => RuntimeFact.selector.inj, hkeys _ _ fun _ _ => RuntimeFact.metric.inj,
    hmap ?_⟩, hkeys _ _ fun _ _ => RuntimeFact.value.inj, hmap ?_⟩,
    hset _ _ fun _ _ => RuntimeFact.issueCode.inj, hmap ?_⟩,
    hset _ _ fun _ _ => RuntimeFact.metricKey.inj, hmap ?_⟩,
    hset _ _ fun _ _ => RuntimeFact.valueKey.inj, hmap ?_⟩, hdomains, hmap ?_⟩, hunnamed,
    hlast ?_⟩ <;> simp

section
variable {ν : Type} {m : OrderedMap String ν} {entries entries' : List (String × ν)} {key : String}

theorem lastEntry_append : lastEntry key (entries ++ entries') =
    (lastEntry key entries').or (lastEntry key entries) := by
  unfold lastEntry
  rw [filter_append, getLast?_append]
  cases (entries'.filter fun entry => entry.1 = key).getLast? <;> rfl

/-- What is inserted last is read. -/
theorem get_insertAll : (insertAll m entries).get key = (lastEntry key entries).or (m.get key) := by
  induction entries generalizing m with
  | nil => rfl
  | cons entry rest ih =>
    have hcons : insertAll m (entry :: rest) = insertAll (m.insert entry.1 entry.2) rest := rfl
    rw [hcons, ih, OrderedMap.get_insert, ← singleton_append, lastEntry_append]
    by_cases hkey : entry.1 = key
    · simp [lastEntry, hkey]
    · simp [lastEntry, hkey, Ne.symm hkey]

theorem mem_keys : key ∈ m.entries.map Prod.fst ↔ (m.get key).isSome := by
  rw [mem_map, Option.isSome_iff_exists]
  constructor
  · rintro ⟨⟨_, value⟩, hmem, rfl⟩
    exact ⟨value, OrderedMap.mem_entries.mp hmem⟩
  · rintro ⟨value, hget⟩
    exact ⟨(key, value), OrderedMap.mem_entries.mpr hget, rfl⟩

theorem lastEntry_isSome : (lastEntry key entries).isSome ↔ key ∈ entries.map Prod.fst := by
  unfold lastEntry
  rw [Option.isSome_map, Option.isSome_iff_ne_none, Ne, getLast?_eq_none_iff,
    filter_eq_nil_iff]
  simp

theorem mem_keys_insertAll : key ∈ (insertAll m entries).entries.map Prod.fst ↔
    key ∈ m.entries.map Prod.fst ∨ key ∈ entries.map Prod.fst := by
  rw [mem_keys, mem_keys, ← lastEntry_isSome, get_insertAll, Option.isSome_or, Bool.or_eq_true,
    or_comm]

theorem mem_insertDomains {domains new : List RuntimeFactDomain} {domain : RuntimeFactDomain} :
    domain ∈ insertDomains domains new ↔ domain ∈ domains ∨ domain ∈ new := by
  induction new generalizing domains with
  | nil => simp [insertDomains]
  | cons first rest ih =>
    have hcons : insertDomains domains (first :: rest) =
        insertDomains (if first ∈ domains then domains else domains ++ [first]) rest := rfl
    rw [hcons, ih]
    by_cases hmem : first ∈ domains
    · rw [if_pos hmem, mem_cons]
      constructor
      · exact Or.imp_right Or.inr
      · rintro (hin | rfl | hin)
        · exact .inl hin
        · exact .inl hmem
        · exact .inr hin
    · rw [if_neg hmem, mem_append, mem_singleton, mem_cons, or_assoc]

theorem nodup_insertDomains {domains new : List RuntimeFactDomain} (h : domains.Nodup) :
    (insertDomains domains new).Nodup := by
  induction new generalizing domains with
  | nil => exact h
  | cons first rest ih =>
    refine @ih (if first ∈ domains then domains else domains ++ [first]) ?_
    by_cases hmem : first ∈ domains
    · rw [if_pos hmem]
      exact h
    · rw [if_neg hmem]
      exact nodup_append.mpr ⟨h, nodup_singleton first, fun a ha b hb heq =>
        hmem (mem_singleton.mp hb ▸ heq ▸ ha)⟩

end

/-- Facts hold something, in words of their fields. -/
def Holds (live : LiveRuntimeFacts F V) : RuntimeFact → Prop
  | .selector selector => selector ∈ live.facts.selectors.toList
  | .metric key => key ∈ live.facts.metrics.entries.map Prod.fst
  | .metricKey key => key ∈ live.metricKeys.toList
  | .value key => key ∈ live.facts.values.entries.map Prod.fst
  | .valueKey key => key ∈ live.valueKeys.toList
  | .issueCode code => code ∈ live.facts.issueCodes.toList
  | .complete domain => domain ∈ live.completeDomains
  | .unnamed => 0 < live.facts.unnamedInteractiveCount

omit [Binary64 F] [JsonAccess F V] in
theorem mem_held {fact : RuntimeFact} : fact ∈ held live ↔ Holds live fact := by
  unfold held
  cases fact <;> by_cases hcount : 0 < live.facts.unnamedInteractiveCount <;>
    simp [Holds, hcount]

variable (F) in
/-- A payload offers something, in words of what is read of it. -/
def Offers (object : OrderedMap String V) : RuntimeFact → Prop
  | .selector selector => selector ∈ textsAt F object "selectors"
  | .metric key | .metricKey key => key ∈ (metricsOf object).map fun entry : String × F => entry.1
  | .value key | .valueKey key => key ∈ (valuesOf F object).map Prod.fst
  | .issueCode code => code ∈ textsAt F object "issue_codes"
  | .complete domain => domain ∈ completeOf F object
  | .unnamed => 0 < countOf F object

theorem mem_offers {fact : RuntimeFact} : fact ∈ offers F object ↔ Offers F object fact := by
  unfold offers
  cases fact <;> by_cases hcount : 0 < countOf F object <;> simp [Offers, hcount]

/-- A payload adds what it offers. -/
theorem mem_held_compile {fact : RuntimeFact} :
    fact ∈ held (compileFactPayload object live) ↔ fact ∈ held live ∨ fact ∈ offers F object := by
  rw [mem_held, mem_held, mem_offers]
  cases fact with
  | selector selector => exact mem_extend
  | metric key => exact mem_keys_insertAll
  | metricKey key => exact mem_extend
  | value key => exact mem_keys_insertAll
  | valueKey key => exact mem_extend
  | issueCode code => exact mem_extend
  | complete domain => exact mem_insertDomains
  | unnamed => exact lt_max_iff

/-- The facts weigh more if and only if the payload offers something new. -/
theorem factWeight_lt (h : live.completeDomains.Nodup) :
    factWeight live < factWeight (compileFactPayload object live) ↔
      ∃ fact ∈ offers F object, fact ∉ held live := by
  have hnodup := nodup_held h
  have hnodup' : (held (compileFactPayload object live)).Nodup := nodup_held (nodup_insertDomains h)
  have hsubset : held live ⊆ held (compileFactPayload object live) :=
    fun fact hfact => mem_held_compile.mpr (.inl hfact)
  rw [← length_held, ← length_held]
  constructor
  · intro hlt
    by_contra hnone
    push Not at hnone
    have hback : held (compileFactPayload object live) ⊆ held live := by
      intro fact hfact
      rcases mem_held_compile.mp hfact with hin | hin
      · exact hin
      · exact hnone fact hin
    have hle := (subperm_of_subset hnodup' hback).length_le
    omega
  · rintro ⟨fact, hoffered, hnew⟩
    have hsubperm := subperm_of_subset hnodup hsubset
    by_contra hle
    have hperm := hsubperm.perm_of_length_le (by omega)
    exact hnew (hperm.mem_iff.mpr (mem_held_compile.mpr (.inr hoffered)))

/-! ## The run over the evidence -/

variable {revision : String} {item : FactEvidence V} {tally : FactTally F V}
  {evidence : List (FactEvidence V)} {seen : List RuntimeFact}

/-- An item that may not be used adds no facts and is not cited. -/
theorem consider_none (h : usable F revision item = none) :
    (tally.consider revision item).output = tally.output ∧
      (tally.consider revision item).evidenceIds = tally.evidenceIds := by
  unfold usable at h
  unfold FactTally.consider
  by_cases htaint : item.secretTaint = true
  · rw [if_pos htaint]
    exact ⟨rfl, rfl⟩
  by_cases hrevision : item.revision = some revision
  · by_cases huncertainty : item.uncertainty ∈ [UncertaintyClass.observed, .derived]
    · rw [if_pos ⟨Bool.not_eq_true _ ▸ htaint, hrevision, huncertainty⟩] at h
      rw [if_neg htaint, if_neg (not_not.mpr hrevision), if_neg (not_not.mpr huncertainty), h]
      exact ⟨rfl, rfl⟩
    · rw [if_neg htaint, if_neg (not_not.mpr hrevision), if_pos huncertainty]
      exact ⟨rfl, rfl⟩
  · rw [if_neg htaint, if_pos hrevision]
    exact ⟨rfl, rfl⟩

/-- One that may be used adds its payload, and is cited if the facts weigh more. -/
theorem consider_some (h : usable F revision item = some object) :
    (tally.consider revision item).output = compileFactPayload object tally.output ∧
      (tally.consider revision item).evidenceIds =
        if factWeight tally.output < factWeight (compileFactPayload object tally.output) then
          tally.evidenceIds.insert item.id else tally.evidenceIds := by
  unfold usable at h
  split_ifs at h with huse
  obtain ⟨htaint, hrevision, huncertainty⟩ := huse
  unfold FactTally.consider
  rw [if_neg (by rw [htaint]; exact Bool.false_ne_true), if_neg (not_not.mpr hrevision),
    if_neg (not_not.mpr huncertainty), h]
  exact ⟨rfl, rfl⟩

variable (F) in
/-- The facts of some items alone. -/
def factsOf (revision : String) (evidence : List (FactEvidence V)) (live : LiveRuntimeFacts F V) :
    LiveRuntimeFacts F V :=
  (payloads F revision evidence).foldl (fun live object => compileFactPayload object live) live

omit [Binary64 F] in
theorem payloads_cons_none (h : usable F revision item = none) :
    payloads F revision (item :: evidence) = payloads F revision evidence :=
  filterMap_cons_none h

omit [Binary64 F] in
theorem payloads_cons_some (h : usable F revision item = some object) :
    payloads F revision (item :: evidence) = object :: payloads F revision evidence :=
  filterMap_cons_some h

theorem introducing_cons_none (h : usable F revision item = none) :
    introducing F revision seen (item :: evidence) = introducing F revision seen evidence := by
  rw [introducing, h]

theorem introducing_cons_some (h : usable F revision item = some object) :
    introducing F revision seen (item :: evidence) =
      (if ∀ fact ∈ offers F object, fact ∈ seen then [] else [item.id]) ++
        introducing F revision (seen ++ offers F object) evidence := by
  rw [introducing, h]

/-- The loop gives the facts of the items that may be used, and cites those that introduce
something. -/
theorem foldl_consider (hdomains : tally.output.completeDomains.Nodup)
    (hseen : ∀ fact, fact ∈ held tally.output ↔ fact ∈ seen) :
    (evidence.foldl (FactTally.consider revision) tally).output =
        factsOf F revision evidence tally.output ∧
      ∀ id, id ∈ (evidence.foldl (FactTally.consider revision) tally).evidenceIds.toList ↔
        id ∈ tally.evidenceIds.toList ∨ id ∈ introducing F revision seen evidence := by
  induction evidence generalizing tally seen with
  | nil => exact ⟨rfl, fun id => by simp [introducing]⟩
  | cons item rest ih =>
    rw [foldl_cons, factsOf]
    cases husable : usable F revision item with
    | none =>
      obtain ⟨houtput, hids⟩ := @consider_none _ _ _ _ revision item tally husable
      obtain ⟨hfacts, hcited⟩ := @ih (tally.consider revision item) seen (houtput ▸ hdomains)
        (houtput ▸ hseen)
      rw [payloads_cons_none husable, introducing_cons_none husable]
      rw [houtput] at hfacts
      rw [hids] at hcited
      exact ⟨hfacts, hcited⟩
    | some object =>
      obtain ⟨houtput, hids⟩ := @consider_some _ _ _ _ object revision item tally husable
      have hseen' : ∀ fact, fact ∈ held (tally.consider revision item).output ↔
          fact ∈ seen ++ offers F object := by
        intro fact
        rw [houtput, mem_held_compile, hseen, mem_append]
      have hdomains' : (tally.consider revision item).output.completeDomains.Nodup := by
        rw [houtput]
        exact nodup_insertDomains hdomains
      obtain ⟨hfacts, hcited⟩ := ih hdomains' hseen'
      rw [payloads_cons_some husable, introducing_cons_some husable, foldl_cons]
      rw [houtput] at hfacts
      refine ⟨hfacts, fun id => ?_⟩
      have hnew : (∃ fact ∈ offers F object, fact ∉ held tally.output) ↔
          ¬∀ fact ∈ offers F object, fact ∈ seen := by
        push Not
        exact exists_congr fun fact => and_congr_right fun _ => not_congr (hseen fact)
      rw [hcited, hids]
      by_cases hall : ∀ fact ∈ offers F object, fact ∈ seen
      · rw [if_neg fun hlt => hnew.mp ((factWeight_lt hdomains).mp hlt) hall, if_pos hall,
          nil_append]
      · rw [if_pos ((factWeight_lt hdomains).mpr (hnew.mpr hall)), if_neg hall,
          mem_insert, mem_append, mem_singleton, or_comm (a := id = item.id),
          or_assoc]

theorem mem_held_factsOf {fact : RuntimeFact} : fact ∈ held (factsOf F revision evidence live) ↔
    fact ∈ held live ∨ fact ∈ (payloads F revision evidence).flatMap (offers F) := by
  unfold factsOf
  induction payloads F revision evidence generalizing live with
  | nil => simp
  | cons object rest ih =>
    rw [foldl_cons, ih, mem_held_compile, flatMap_cons, mem_append, or_assoc]

theorem metrics_factsOf {key : String} : (factsOf F revision evidence live).facts.metrics.get key =
    (lastEntry key ((payloads F revision evidence).flatMap (metricsOf (F := F)))).or
      (live.facts.metrics.get key) := by
  unfold factsOf
  induction payloads F revision evidence generalizing live with
  | nil => rfl
  | cons object rest ih =>
    rw [foldl_cons, ih, flatMap_cons, lastEntry_append, Option.or_assoc]
    exact congrArg _ get_insertAll

theorem values_factsOf {key : String} : (factsOf F revision evidence live).facts.values.get key =
    (lastEntry key ((payloads F revision evidence).flatMap (valuesOf F))).or
      (live.facts.values.get key) := by
  unfold factsOf
  induction payloads F revision evidence generalizing live with
  | nil => rfl
  | cons object rest ih =>
    rw [foldl_cons, ih, flatMap_cons, lastEntry_append, Option.or_assoc]
    exact congrArg _ get_insertAll

theorem count_factsOf : (factsOf F revision evidence live).facts.unnamedInteractiveCount =
    ((payloads F revision evidence).map (countOf F)).foldl max
      live.facts.unnamedInteractiveCount := by
  unfold factsOf
  induction payloads F revision evidence generalizing live with
  | nil => rfl
  | cons object rest ih =>
    rw [foldl_cons, ih, map_cons, foldl_cons]
    rfl

omit [Binary64 F] in
theorem mem_payloads : object ∈ payloads F revision evidence ↔
    ∃ item ∈ evidence, usable F revision item = some object :=
  mem_filterMap

/-- What is offered was there before, or is offered by an item that is cited. -/
theorem exists_introducing {fact : RuntimeFact}
    (h : fact ∈ (payloads F revision evidence).flatMap (offers F)) :
    fact ∈ seen ∨ ∃ item ∈ evidence, item.id ∈ introducing F revision seen evidence ∧
      ∃ object, usable F revision item = some object ∧ fact ∈ offers F object := by
  induction evidence generalizing seen with
  | nil => cases h
  | cons item rest ih =>
    cases husable : usable F revision item with
    | none =>
      rw [payloads_cons_none husable] at h
      rw [introducing_cons_none husable]
      rcases ih h with hseen | ⟨later, hlater, hcited, hoffers⟩
      · exact .inl hseen
      · exact .inr ⟨later, mem_cons_of_mem item hlater, hcited, hoffers⟩
    | some object =>
      rw [payloads_cons_some husable, flatMap_cons, mem_append] at h
      rw [introducing_cons_some husable]
      by_cases hfact : fact ∈ seen
      · exact .inl hfact
      by_cases hoffered : fact ∈ offers F object
      · refine .inr ⟨item, mem_cons_self, ?_, object, husable, hoffered⟩
        rw [if_neg fun hall => hfact (hall fact hoffered)]
        exact mem_append_left _ (mem_singleton_self _)
      · obtain hrest := h.resolve_left hoffered
        rcases @ih (seen ++ offers F object) hrest with hseen | ⟨later, hlater, hcited, hoffers⟩
        · exact absurd (mem_append.mp hseen) (not_or.mpr ⟨hfact, hoffered⟩)
        · exact .inr ⟨later, mem_cons_of_mem item hlater, mem_append_right _ hcited,
            hoffers⟩

/-- The backing items offer all that the items offer. -/
theorem offered_backing {fact : RuntimeFact} :
    fact ∈ (payloads F revision (backing F revision evidence)).flatMap (offers F) ↔
      fact ∈ (payloads F revision evidence).flatMap (offers F) := by
  constructor
  · intro h
    obtain ⟨object, hobject, hfact⟩ := mem_flatMap.mp h
    obtain ⟨item, hitem, husable⟩ := mem_payloads.mp hobject
    exact mem_flatMap.mpr
      ⟨object, mem_payloads.mpr ⟨item, (mem_filter.mp hitem).1, husable⟩, hfact⟩
  · intro h
    obtain ⟨item, hitem, hcited, object, husable, hfact⟩ :=
      (@exists_introducing _ _ _ _ _ _ [] _ h).resolve_left not_mem_nil
    have hbacking : item ∈ backing F revision evidence :=
      mem_filter.mpr ⟨hitem, decide_eq_true hcited⟩
    exact mem_flatMap.mpr ⟨object, mem_payloads.mpr ⟨item, hbacking, husable⟩, hfact⟩

/-- Whatever is held is held by the facts of the backing items. -/
theorem held_backing {fact : RuntimeFact} :
    Holds (factsOf F revision evidence .default) fact ↔
      Holds (factsOf F revision (backing F revision evidence) .default) fact := by
  rw [← mem_held, ← mem_held, mem_held_factsOf, mem_held_factsOf, offered_backing]

/-- The facts of the items are read like those of the backing items exactly where no change
of a value is lost. -/
theorem sameFacts_backing :
    SameFacts (factsOf F revision evidence .default)
        (factsOf F revision (backing F revision evidence) .default) ↔
      Backed F revision evidence := by
  constructor
  · intro h
    refine ⟨fun key => ?_, fun key => ?_, ?_⟩
    · have hsame := h.metrics key
      rw [metrics_factsOf, metrics_factsOf] at hsame
      simpa [LiveRuntimeFacts.default, RuntimeFacts.default] using hsame
    · have hsame := h.values key
      rw [values_factsOf, values_factsOf] at hsame
      simpa [LiveRuntimeFacts.default, RuntimeFacts.default] using hsame
    · have hsame := h.unnamed
      rw [count_factsOf, count_factsOf] at hsame
      exact hsame
  · intro h
    refine ⟨fun s => @held_backing _ _ _ _ _ _ (.selector s), fun key => ?_, fun key => ?_,
      fun code => @held_backing _ _ _ _ _ _ (.issueCode code), ?_,
      fun domain => @held_backing _ _ _ _ _ _ (.complete domain),
      fun key => @held_backing _ _ _ _ _ _ (.metricKey key),
      fun key => @held_backing _ _ _ _ _ _ (.valueKey key)⟩
    · rw [metrics_factsOf, metrics_factsOf, h.metrics]
    · rw [values_factsOf, values_factsOf, h.values]
    · rw [count_factsOf, count_factsOf]
      exact h.count

/-! ## Citations -/

variable (F) in
def cited (revision : String) (evidence : List (FactEvidence V)) : List (FactEvidence V) :=
  evidence.filter fun item =>
    item.id ∈ (compileRuntimeFacts evidence revision : LiveRuntimeFacts F V).evidenceIds

omit [Binary64 F] [JsonAccess F V] in
theorem held_default (fact : RuntimeFact) : fact ∉ held (.default : LiveRuntimeFacts F V) := by
  rw [mem_held]
  cases fact <;> simp [Holds, LiveRuntimeFacts.default, RuntimeFacts.default, OrderedMap.empty]

variable (F) in
/-- The tally at the end of the evidence. -/
def finalTally (revision : String) (evidence : List (FactEvidence V)) : FactTally F V :=
  evidence.foldl (FactTally.consider revision) ⟨.default, .empty, .empty, .empty, .empty⟩

theorem finalTally_spec :
    (finalTally F revision evidence).output = factsOf F revision evidence .default ∧
      ∀ id, id ∈ (finalTally F revision evidence).evidenceIds.toList ↔
        id ∈ introducing F revision [] evidence := by
  obtain ⟨hfacts, hids⟩ := @foldl_consider F V _ _ revision
    ⟨.default, .empty, .empty, .empty, .empty⟩ evidence [] nodup_nil
    (fun fact => iff_of_false (held_default fact) not_mem_nil)
  refine ⟨hfacts, fun id => ?_⟩
  rw [finalTally, hids, or_iff_right]
  exact not_mem_nil

/-- The items that are cited are those that back the facts. -/
theorem cited_eq_backing : cited F revision evidence = backing F revision evidence := by
  refine filter_congr fun item _ => ?_
  rw [decide_eq_decide]
  exact finalTally_spec.2 item.id

theorem sameFacts_compileRuntimeFacts {evidence' : List (FactEvidence V)} :
    SameFacts (compileRuntimeFacts evidence revision : LiveRuntimeFacts F V)
        (compileRuntimeFacts evidence' revision) ↔
      SameFacts (factsOf F revision evidence .default) (factsOf F revision evidence' .default) := by
  have hfacts := (@finalTally_spec F V _ _ revision evidence).1
  have hfacts' := (@finalTally_spec F V _ _ revision evidence').1
  rw [← hfacts, ← hfacts']
  constructor <;> rintro ⟨h1, h2, h3, h4, h5, h6, h7, h8⟩ <;>
    exact ⟨h1, h2, h3, h4, h5, h6, h7, h8⟩

/-- The facts compiled of the cited items alone are read like those compiled of all exactly
where each metric and each value is last given, and the count greatest, as it is by an item
with the id of one that introduces something. -/
theorem runtime_fact_citations (evidence : List (FactEvidence V)) (revision : String) :
    SameFacts (compileRuntimeFacts evidence revision : LiveRuntimeFacts F V)
        (compileRuntimeFacts (cited F revision evidence) revision) ↔
      Backed F revision evidence := by
  rw [sameFacts_compileRuntimeFacts, cited_eq_backing]
  exact sameFacts_backing

end

/-- JSON whose numbers are naturals. -/
instance plainJson : JsonAccess ℚ JsonText.Json where
  asObject
    | .object members => some (.ofList members)
    | _ => none
  asArray
    | .array items => some items
    | _ => none
  asStr
    | .string s => some s
    | _ => none
  asBool
    | .bool b => some b
    | _ => none
  asF64
    | .number asU64 => asU64.map (↑·)
    | _ => none
  asU64
    | .number asU64 => asU64
    | _ => none

def measured (id : EvidenceId) (n : Nat) : FactEvidence JsonText.Json :=
  { id, payload := .object [("metrics", .object [("lcp", .number (some n))])], revision := some "r"
    uncertainty := .observed, secretTaint := false }

/-- The second measurement decides the metric, and only the first is cited. -/
theorem overwritten_metric_not_cited :
    ¬∀ (evidence : List (FactEvidence JsonText.Json)) (revision : String),
      SameFacts (compileRuntimeFacts evidence revision : LiveRuntimeFacts ℚ JsonText.Json)
        (compileRuntimeFacts (cited ℚ revision evidence) revision) := by
  intro hall
  have hsame := (hall [measured "first" 1, measured "second" 2] "r").metrics "lcp"
  revert hsame
  decide +kernel

end Localview
