import Localview.AssocMap
import Localview.JsonText
import Localview.Protocol
import Localview.StateRun
import Mathlib.Data.List.Perm.Subperm

/-! # The evidence store

`EvidenceStore` of `crates/evidence/src/lib.rs`, as far as `insert_with_retention` goes:
objects under the hash of what they were inserted from, a retention tier each, and the
order they came in.

The store never holds more than its capacity unless all it holds is protected, so an
insertion evicts one object at most (`InsertEffect`), and that one may be the object just
inserted.
-/
namespace Localview
open JsonText StateRun List Bool AssocMap

abbrev EvidenceId := String

abbrev F32 := BitVec 32

namespace F32

def isNan (x : F32) : Bool := decide (0x7F800000#32 < x &&& 0x7FFFFFFF#32)

def isFinite (x : F32) : Bool := decide (x &&& 0x7FFFFFFF#32 < 0x7F800000#32)

/-- `self < 0.0`: the negative zero is not. -/
def isNegative (x : F32) : Bool := !x.isNan && decide (0x80000000#32 < x)

/-- `self > 1.0` -/
def exceedsOne (x : F32) : Bool :=
  !x.isNan && decide (x < 0x80000000#32) && decide (0x3F800000#32 < x)

/-- `clamp(0.0, 1.0)`; a NaN stays what it is. -/
def clampUnit (x : F32) : F32 :=
  if x.isNegative then 0#32 else if x.exceedsOne then 0x3F800000#32 else x

/-- In the unit interval, or not a number. -/
def InUnit (x : F32) : Prop := x.isNegative = false ∧ x.exceedsOne = false

instance (x : F32) : Decidable (InUnit x) := inferInstanceAs (Decidable (_ ∧ _))

theorem clampUnit_eq {x : F32} (h : x.InUnit) : x.clampUnit = x := by
  obtain ⟨hlow, hhigh⟩ := h
  rw [clampUnit, hlow, hhigh]
  rfl

end F32

/-! ## What is stored -/

/-- What a piece of evidence is about. -/
inductive EvidenceKind
  | visual
  | semantic
  | layout
  | console
  | network
  | source
  | interaction
  | performance
  | accessibility
  | contract
  | test
  | causal
  | coverage
  | proof
  | repro

def EvidenceKind.name : EvidenceKind → String
  | visual => "visual"
  | semantic => "semantic"
  | layout => "layout"
  | console => "console"
  | network => "network"
  | source => "source"
  | interaction => "interaction"
  | performance => "performance"
  | accessibility => "accessibility"
  | contract => "contract"
  | test => "test"
  | causal => "causal"
  | coverage => "coverage"
  | proof => "proof"
  | repro => "repro"

/-- How evidence was come by. -/
inductive UncertaintyClass
  | observed
  | derived
  | heuristic
  | subjective
  | unknown
  deriving DecidableEq

def UncertaintyClass.name : UncertaintyClass → String
  | observed => "observed"
  | derived => "derived"
  | heuristic => "heuristic"
  | subjective => "subjective"
  | unknown => "unknown"

/-- How long evidence is kept; `baseline` on, for good. -/
inductive RetentionTier
  | ephemeral
  | session
  | project
  | baseline
  | pinned
  deriving DecidableEq

/-- The derived order of tiers. -/
def RetentionTier.rank : RetentionTier → Nat
  | ephemeral => 0
  | session => 1
  | project => 2
  | baseline => 3
  | pinned => 4

/-- A JSON value as it is written; a number is its text. -/
inductive JsonValue
  | null
  | bool (b : Bool)
  | number (text : String)
  | string (s : String)
  | array (items : List JsonValue)
  | object (members : List (String × JsonValue))

mutual
def canonicalValue : JsonValue → JsonValue
  | .object members => .object (OrderedMap.ofList (canonicalMembers members)).entries
  | .array items => .array (canonicalItems items)
  | .null => .null
  | .bool b => .bool b
  | .number text => .number text
  | .string s => .string s

def canonicalItems : List JsonValue → List JsonValue
  | [] => []
  | item :: rest => canonicalValue item :: canonicalItems rest

def canonicalMembers : List (String × JsonValue) → List (String × JsonValue)
  | [] => []
  | (key, value) :: rest => (key, canonicalValue value) :: canonicalMembers rest
end

mutual
/-- `serde_json::to_vec` -/
def JsonValue.text : JsonValue → List Char
  | .null => ['n', 'u', 'l', 'l']
  | .bool true => ['t', 'r', 'u', 'e']
  | .bool false => ['f', 'a', 'l', 's', 'e']
  | .number text => text.toList
  | .string s => quoted s
  | .array items => '[' :: (itemsText items ++ [']'])
  | .object members => '\x7b' :: (valuesText members ++ ['\x7d'])

def itemsText : List JsonValue → List Char
  | [] => []
  | [item] => item.text
  | item :: next :: rest => item.text ++ ',' :: itemsText (next :: rest)

def valuesText : List (String × JsonValue) → List Char
  | [] => []
  | [(key, value)] => quoted key ++ ':' :: value.text
  | (key, value) :: next :: rest =>
      quoted key ++ ':' :: (value.text ++ ',' :: valuesText (next :: rest))
end

/-- Where evidence comes from. -/
structure Provenance where
  source : String
  (engine revision : Option String)
  parentIds : List EvidenceId
  capturedAt : Timestamp

/-- Evidence not stored yet. -/
structure EvidenceDraft where
  kind : EvidenceKind
  sessionId : SessionId
  region : Option String
  payload : JsonValue
  provenance : Provenance
  confidence : F32
  uncertainty : UncertaintyClass
  secretTaint : Bool

/-- An id, and the fields of a draft. -/
structure EvidenceObject extends EvidenceDraft where
  id : EvidenceId

/-- What the ids rest on besides JSON: SHA-256 of a text's UTF-8 in hex, and the texts of
numbers and times. -/
structure EvidenceCodec where
  sha256Hex : List Char → String
  floatText : F32 → String
  timeText : Timestamp → String

namespace EvidenceCodec
variable (codec : EvidenceCodec)

def ofOption : Option String → JsonValue
  | none => .null
  | some s => .string s

/-- `serde_json::to_value` of an `f32` -/
def ofFloat (x : F32) : JsonValue :=
  if x.isFinite then .number (codec.floatText x) else .null

/-- `serde_json::to_value` of a draft -/
def toValue (draft : EvidenceDraft) : JsonValue :=
  .object
    [("kind", .string draft.kind.name),
      ("session_id", .string draft.sessionId.display),
      ("region", ofOption draft.region),
      ("payload", draft.payload),
      ("provenance", .object
        [("source", .string draft.provenance.source),
          ("engine", ofOption draft.provenance.engine),
          ("revision", ofOption draft.provenance.revision),
          ("parent_ids", .array (draft.provenance.parentIds.map .string)),
          ("captured_at", .string (codec.timeText draft.provenance.capturedAt))]),
      ("confidence", codec.ofFloat draft.confidence),
      ("uncertainty", .string draft.uncertainty.name),
      ("secret_taint", .bool draft.secretTaint)]

def evidenceId (draft : EvidenceDraft) : EvidenceId :=
  "ev_" ++ codec.sha256Hex (canonicalValue (codec.toValue draft)).text

end EvidenceCodec

/-! ## The store -/

structure InsertReport where
  id : EvidenceId
  deduplicated : Bool

/-- Evidence by id, oldest first. -/
structure EvidenceStore where
  capacity : Nat
  byId : AssocMap EvidenceId EvidenceObject
  retention : AssocMap EvidenceId RetentionTier
  order : List EvidenceId

namespace EvidenceStore

def new (capacity : Nat) : EvidenceStore :=
  { capacity := max capacity 64, byId := .empty, retention := .empty, order := [] }

def get (store : EvidenceStore) (id : EvidenceId) : Option EvidenceObject := store.byId.get id

open RetentionTier

/-- The tier of an object is below `Baseline`. -/
def evictable (store : EvidenceStore) (id : EvidenceId) : Bool :=
  decide (((store.retention.get id).getD .session).rank < baseline.rank)

/-- One turn of the eviction loop; `none` where it breaks. -/
def evictOldest (store : EvidenceStore) : Option EvidenceStore :=
  match store.order.findIdx? store.evictable with
  | none => none
  | some index =>
      match store.order[index]? with
      | none => some store
      | some oldest =>
          some { store with
            order := store.order.eraseIdx index
            byId := store.byId.erase oldest
            retention := store.retention.erase oldest }

/-- The eviction loop, as often as the first argument says at most. -/
def evictLoop : Nat → EvidenceStore → EvidenceStore
  | 0, store => store
  | n + 1, store =>
      if store.capacity < store.byId.size then
        match store.evictOldest with
        | none => store
        | some store => evictLoop n store
      else store

/-- The stored object of a draft. -/
def object (id : EvidenceId) (draft : EvidenceDraft) : EvidenceObject :=
  { draft with id, confidence := draft.confidence.clampUnit }

/-- The store with a new object, before anything is evicted. -/
def pushed (store : EvidenceStore) (id : EvidenceId) (draft : EvidenceDraft)
    (retention : RetentionTier) : EvidenceStore :=
  { store with
    order := store.order ++ [id]
    retention := store.retention.insert id retention
    byId := store.byId.insert id (object id draft) }

/-- The tier of a duplicate is raised. -/
def raised (store : EvidenceStore) (id : EvidenceId) (retention : RetentionTier) : EvidenceStore :=
  let current := (store.retention.get id).getD .session
  { store with
    retention := store.retention.insert id
      (if current.rank < retention.rank then retention else current) }

/-- `insert_with_retention`; each turn of the loop removes an object. -/
def insertWithRetention (codec : EvidenceCodec) (store : EvidenceStore) (draft : EvidenceDraft)
    (retention : RetentionTier) : InsertReport × EvidenceStore :=
  let id := codec.evidenceId draft
  if (store.byId.get id).isSome then
    ({ id, deduplicated := true }, store.raised id retention)
  else
    let store := store.pushed id draft retention
    ({ id, deduplicated := false }, store.evictLoop store.byId.size)

/-! ## One insertion -/

/-- The store without an object. -/
def dropped (store : EvidenceStore) (id : EvidenceId) : EvidenceStore :=
  { store with
    order := store.order.erase id
    byId := store.byId.erase id
    retention := store.retention.erase id }

/-- The indexes hold the same ids, each once. -/
structure Indexed (store : EvidenceStore) : Prop where
  nodup : store.order.Nodup
  stored : ∀ id, id ∈ store.order ↔ (store.byId.get id).isSome
  tiered : ∀ id, id ∈ store.order ↔ (store.retention.get id).isSome

/-- Past the capacity all objects are protected. -/
def Bounded (store : EvidenceStore) : Prop :=
  store.byId.size ≤ store.capacity ∨ ∀ id ∈ store.order, store.evictable id = false

section
variable {codec : EvidenceCodec} {store : EvidenceStore} {id : EvidenceId} {draft : EvidenceDraft}
  {retention : RetentionTier}

theorem Indexed.size (h : store.Indexed) : store.byId.size = store.order.length := by
  have hperm : (store.byId.entries.map Prod.fst).Perm store.order := by
    rw [perm_ext_iff_of_nodup store.byId.nodup h.nodup]
    intro id
    rw [h.stored, get_isSome_iff]
  rw [AssocMap.size, ← hperm.length_eq, length_map]

theorem Indexed.pushed (h : store.Indexed) (hnew : store.byId.get id = none) :
    (store.pushed id draft retention).Indexed := by
  have hout : id ∉ store.order := by
    rw [h.stored, hnew]
    exact false_ne_true
  refine ⟨?_, fun id' => ?_, fun id' => ?_⟩
  · exact nodup_append.mpr ⟨h.nodup, nodup_singleton id, fun a ha b hb =>
      (mem_singleton.mp hb).symm ▸ fun heq => hout (heq ▸ ha)⟩
  · rw [EvidenceStore.pushed, mem_append, mem_singleton, get_insert, h.stored]
    split_ifs with heq
    · simp [heq]
    · simp [heq]
  · rw [EvidenceStore.pushed, mem_append, mem_singleton, get_insert, h.tiered]
    split_ifs with heq
    · simp [heq]
    · simp [heq]

theorem Indexed.dropped (h : store.Indexed) (id : EvidenceId) : (store.dropped id).Indexed := by
  refine ⟨h.nodup.erase id, fun id' => ?_, fun id' => ?_⟩
  · rw [EvidenceStore.dropped, h.nodup.mem_erase_iff, get_erase, h.stored]
    split_ifs with heq
    · simp [heq]
    · simp [heq]
  · rw [EvidenceStore.dropped, h.nodup.mem_erase_iff, get_erase, h.tiered]
    split_ifs with heq
    · simp [heq]
    · simp [heq]

theorem Indexed.raised (h : store.Indexed) (hid : (store.byId.get id).isSome) :
    (store.raised id retention).Indexed := by
  refine ⟨h.nodup, h.stored, fun id' => ?_⟩
  rw [EvidenceStore.raised, get_insert]
  by_cases heq : id' = id
  · rw [if_pos heq, heq]
    exact iff_of_true ((h.stored id).mpr hid) rfl
  · rw [if_neg heq]
    exact h.tiered id'

/-- A turn of the loop: nothing left to evict, or the oldest object that may go does. -/
theorem evictOldest_spec (h : store.Indexed) :
    (store.evictOldest = none ∧ ∀ id ∈ store.order, store.evictable id = false) ∨
      ∃ oldest ∈ store.order, store.evictable oldest = true ∧
        (∀ id ∈ store.order, store.order.idxOf id < store.order.idxOf oldest →
          store.evictable id = false) ∧
        store.evictOldest = some (store.dropped oldest) := by
  rw [evictOldest]
  cases hindex : store.order.findIdx? store.evictable with
  | none =>
    refine .inl ⟨rfl, fun id hid => ?_⟩
    exact eq_false_of_not_eq_true fun hevict =>
      absurd (findIdx?_eq_none_iff.mp hindex id hid) (by rw [hevict]; decide)
  | some index =>
    obtain ⟨hlt, hevict, hbefore⟩ := findIdx?_eq_some_iff_getElem.mp hindex
    refine .inr ⟨store.order[index], getElem_mem hlt, hevict, fun id hid hidx => ?_, ?_⟩
    · rw [h.nodup.idxOf_getElem index hlt] at hidx
      have hthere := hbefore _ hidx
      rw [getElem_idxOf] at hthere
      exact eq_false_of_not_eq_true hthere
    simp only [getElem?_eq_getElem hlt, EvidenceStore.dropped,
      h.nodup.erase_getElem index hlt]

theorem evictLoop_of_le (h : store.byId.size ≤ store.capacity) (n : Nat) :
    store.evictLoop n = store := by
  cases n with
  | zero => rfl
  | succ n => rw [evictLoop, if_neg h.not_gt]

theorem evictLoop_of_protected (h : store.Indexed)
    (hall : ∀ id ∈ store.order, store.evictable id = false) (n : Nat) :
    store.evictLoop n = store := by
  cases n with
  | zero => rfl
  | succ n =>
    rw [evictLoop]
    split_ifs
    · obtain ⟨hnone, -⟩ | ⟨oldest, hin, hevict, -, -⟩ := evictOldest_spec h
      · rw [hnone]
      · rw [hall oldest hin] at hevict
        cases hevict
    · rfl

/-- What an insertion does: past the capacity one object goes, and it is the new one where
the others are all protected. -/
inductive InsertEffect (codec : EvidenceCodec) (store : EvidenceStore) (draft : EvidenceDraft)
    (retention : RetentionTier) : InsertReport → EvidenceStore → Prop
  | duplicate : (store.byId.get (codec.evidenceId draft)).isSome →
      InsertEffect codec store draft retention ⟨codec.evidenceId draft, true⟩
        (store.raised (codec.evidenceId draft) retention)
  | kept : store.byId.get (codec.evidenceId draft) = none →
      store.byId.size < store.capacity ∨
        (∀ id ∈ store.order, store.evictable id = false) ∧
          baseline.rank ≤ retention.rank →
      InsertEffect codec store draft retention ⟨codec.evidenceId draft, false⟩
        (store.pushed (codec.evidenceId draft) draft retention)
  | evicted (oldest : EvidenceId) : store.byId.get (codec.evidenceId draft) = none →
      store.byId.size = store.capacity → oldest ∈ store.order → store.evictable oldest = true →
      InsertEffect codec store draft retention ⟨codec.evidenceId draft, false⟩
        ((store.pushed (codec.evidenceId draft) draft retention).dropped oldest)
  | crowded : store.byId.get (codec.evidenceId draft) = none →
      store.capacity ≤ store.byId.size → (∀ id ∈ store.order, store.evictable id = false) →
      retention.rank < baseline.rank →
      InsertEffect codec store draft retention ⟨codec.evidenceId draft, false⟩
        ((store.pushed (codec.evidenceId draft) draft retention).dropped
          (codec.evidenceId draft))

theorem evictable_pushed (id : EvidenceId) (draft : EvidenceDraft) (retention : RetentionTier)
    (id' : EvidenceId) : (store.pushed id draft retention).evictable id' =
      if id' = id then decide (retention.rank < baseline.rank)
      else store.evictable id' := by
  rw [evictable, EvidenceStore.pushed, get_insert]
  split_ifs <;> rfl

theorem size_pushed (h : store.Indexed) (hnew : store.byId.get id = none) :
    (store.pushed id draft retention).byId.size = store.byId.size + 1 := by
  rw [(h.pushed hnew).size, h.size]
  exact length_append

theorem evictable_dropped {id id' : EvidenceId} (h : id' ≠ id) :
    (store.dropped id).evictable id' = store.evictable id' := by
  rw [evictable, EvidenceStore.dropped, get_erase_of_ne store.retention h]
  rfl

theorem size_dropped (h : store.Indexed) (hin : id ∈ store.order) :
    (store.dropped id).byId.size + 1 = store.byId.size := by
  have hpos := length_pos_of_mem hin
  rw [(h.dropped id).size, h.size, EvidenceStore.dropped, length_erase_of_mem hin]
  omega

theorem insert_spec (codec : EvidenceCodec) (h : store.Indexed) (hbounded : store.Bounded)
    (draft : EvidenceDraft) (retention : RetentionTier) :
    InsertEffect codec store draft retention
      (store.insertWithRetention codec draft retention).1
      (store.insertWithRetention codec draft retention).2 := by
  rw [insertWithRetention]
  dsimp only
  by_cases hstored : (store.byId.get (codec.evidenceId draft)).isSome
  · rw [if_pos hstored]
    exact .duplicate hstored
  rw [if_neg hstored]
  have hnew : store.byId.get (codec.evidenceId draft) = none := by
    simpa using hstored
  have hout : codec.evidenceId draft ∉ store.order := fun hin =>
    hstored ((h.stored _).mp hin)
  have hpushed : (store.pushed (codec.evidenceId draft) draft retention).Indexed := h.pushed hnew
  have hsize : (store.pushed (codec.evidenceId draft) draft retention).byId.size =
      store.byId.size + 1 := size_pushed h hnew
  by_cases hfits : store.byId.size < store.capacity
  · rw [evictLoop_of_le (by rw [hsize]; exact hfits)]
    exact .kept hnew (.inl hfits)
  rw [hsize, evictLoop, if_pos (by rw [hsize]; exact Nat.lt_succ_of_le (not_lt.mp hfits))]
  obtain ⟨hnone, hall⟩ | ⟨oldest, hin, hevict, hbefore, hsome⟩ := evictOldest_spec hpushed
  · rw [hnone]
    refine .kept hnew (.inr ⟨fun id' hid' => ?_, ?_⟩)
    · have hthere := hall id' (mem_append_left _ hid')
      rwa [evictable_pushed, if_neg (ne_of_mem_of_not_mem hid' hout)] at hthere
    · have hthere := hall _ (mem_append_right _ (mem_singleton_self _))
      rw [evictable_pushed, if_pos rfl] at hthere
      exact not_lt.mp (of_decide_eq_false hthere)
  rw [hsome]
  dsimp only
  rw [evictable_pushed] at hevict
  by_cases hold : oldest = codec.evidenceId draft
  · -- the new object is the last one, so all before it are protected
    subst hold
    rw [if_pos rfl] at hevict
    have hothers : ∀ id' ∈ store.order, store.evictable id' = false := by
      intro id' hid'
      have hidx : (store.order ++ [codec.evidenceId draft]).idxOf id' <
          (store.order ++ [codec.evidenceId draft]).idxOf (codec.evidenceId draft) := by
        rw [idxOf_append_of_mem hid', idxOf_append_of_notMem hout]
        exact (idxOf_lt_length_iff.mpr hid').trans_le (Nat.le_add_right _ _)
      have hthere := hbefore id' (mem_append_left _ hid') hidx
      rwa [evictable_pushed, if_neg (ne_of_mem_of_not_mem hid' hout)] at hthere
    rw [evictLoop_of_protected (hpushed.dropped _)]
    · exact .crowded hnew (not_lt.mp hfits) hothers (of_decide_eq_true hevict)
    · intro id' hid'
      obtain ⟨hne, hid'⟩ := hpushed.nodup.mem_erase_iff.mp hid'
      rw [evictable_dropped hne, evictable_pushed, if_neg hne]
      obtain hid' | hid' := mem_append.mp hid'
      · exact hothers id' hid'
      · exact absurd (mem_singleton.mp hid') hne
  · rw [if_neg hold] at hevict
    obtain hin | hin := mem_append.mp hin
    · have heq : store.byId.size = store.capacity := by
        obtain hle | hall := hbounded
        · exact hle.antisymm (not_lt.mp hfits)
        · rw [hall oldest hin] at hevict
          cases hevict
      have hdropped := size_dropped hpushed (mem_append_left _ hin)
      rw [hsize, Nat.add_right_cancel_iff] at hdropped
      rw [evictLoop_of_le (by rw [hdropped]; exact heq.le)]
      exact .evicted oldest hnew heq hin hevict
    · exact absurd (mem_singleton.mp hin) hold

theorem evictable_raised {id' : EvidenceId} (h : store.evictable id' = false) :
    (store.raised id retention).evictable id' = false := by
  rw [evictable] at h ⊢
  rw [EvidenceStore.raised, get_insert]
  by_cases heq : id' = id
  · subst heq
    have hlow := of_decide_eq_false h
    rw [if_pos rfl]
    refine decide_eq_false ?_
    dsimp only [Option.getD]
    split_ifs with hraise
    · exact fun hlt => hlow (hraise.trans hlt)
    · exact hlow
  · rwa [if_neg heq]

/-- A protected object stays, and stays protected. -/
theorem InsertEffect.keeps {report : InsertReport} {store' : EvidenceStore}
    {stored : EvidenceObject}
    (heffect : InsertEffect codec store draft retention report store')
    (hget : store.byId.get id = some stored) (hprotected : store.evictable id = false) :
    store'.byId.get id = some stored ∧ store'.evictable id = false := by
  have hpushed (hnew : store.byId.get (codec.evidenceId draft) = none) :
      id ≠ codec.evidenceId draft ∧
        (store.pushed (codec.evidenceId draft) draft retention).byId.get id = some stored ∧
        (store.pushed (codec.evidenceId draft) draft retention).evictable id = false := by
    have hne : id ≠ codec.evidenceId draft := by
      rintro rfl
      rw [hget] at hnew
      cases hnew
    refine ⟨hne, ?_, ?_⟩
    · rwa [EvidenceStore.pushed, get_insert_of_ne store.byId hne]
    · rwa [evictable_pushed, if_neg hne]
  have hdropped {gone : EvidenceId} (hne : id ≠ gone)
      (hnew : store.byId.get (codec.evidenceId draft) = none) :
      ((store.pushed (codec.evidenceId draft) draft retention).dropped gone).byId.get id =
          some stored ∧
        ((store.pushed (codec.evidenceId draft) draft retention).dropped gone).evictable id =
          false := by
    obtain ⟨-, hthere, hkept⟩ := hpushed hnew
    refine ⟨?_, ?_⟩
    · rwa [EvidenceStore.dropped, get_erase_of_ne _ hne]
    · rwa [evictable_dropped hne]
  cases heffect with
  | duplicate => exact ⟨hget, evictable_raised hprotected⟩
  | kept hnew => exact (hpushed hnew).2
  | evicted oldest hnew _ _ hevict =>
    have hne : id ≠ oldest := by
      rintro rfl
      rw [hprotected] at hevict
      cases hevict
    exact hdropped hne hnew
  | crowded hnew => exact hdropped (hpushed hnew).1 hnew

/-- An insertion of a new object that is not protected, where all the room is taken by
objects that are. -/
def Crowded (codec : EvidenceCodec) (store : EvidenceStore) (draft : EvidenceDraft)
    (retention : RetentionTier) : Prop :=
  store.get (codec.evidenceId draft) = none ∧ store.capacity ≤ store.byId.size ∧
    (∀ id ∈ store.order, store.evictable id = false) ∧
    retention.rank < baseline.rank

/-- What was inserted is there, unless the store was crowded. -/
theorem InsertEffect.returned {report : InsertReport} {store' : EvidenceStore}
    (heffect : InsertEffect codec store draft retention report store') (h : store.Indexed) :
    (store'.get report.id).isSome ↔ ¬ store.Crowded codec draft retention := by
  cases heffect with
  | duplicate hstored =>
    refine iff_of_true hstored fun hcrowded => ?_
    rw [show store.byId.get _ = none from hcrowded.1] at hstored
    cases hstored
  | kept hnew hroom =>
    refine iff_of_true ?_ fun ⟨_, hfull, hall, hlow⟩ => ?_
    · rw [get, EvidenceStore.pushed, get_insert_self]
      rfl
    · obtain hfits | ⟨-, hhigh⟩ := hroom
      · exact hfull.not_gt hfits
      · exact hlow.not_ge hhigh
  | evicted oldest hnew _ hin hevict =>
    refine iff_of_true ?_ fun ⟨_, _, hall, _⟩ => ?_
    · have hne : codec.evidenceId draft ≠ oldest := by
        rintro rfl
        rw [h.stored, hnew] at hin
        cases hin
      rw [get, EvidenceStore.dropped, get_erase_of_ne _ hne, EvidenceStore.pushed,
        get_insert_self]
      rfl
    · rw [hall oldest hin] at hevict
      cases hevict
  | crowded hnew hfull hall hlow =>
    refine iff_of_false ?_ fun hnot => hnot ⟨hnew, hfull, hall, hlow⟩
    rw [get, EvidenceStore.dropped, get_erase_self]
    exact false_ne_true

end

/-! ## Over a run -/

section

/-- An insert with its retention tier. -/
structure InsertCall where
  draft : EvidenceDraft
  retention : RetentionTier

def InsertStep (codec : EvidenceCodec) (store : EvidenceStore) (call : InsertCall)
    (store' : EvidenceStore) : Prop :=
  (store.insertWithRetention codec call.draft call.retention).2 = store'

variable {codec : EvidenceCodec} {capacity : Nat} {tr : List InsertCall}
  {store store' : EvidenceStore} {call : InsertCall}

/-- What holds after the insertions of a run. -/
structure Sound (codec : EvidenceCodec) (capacity : Nat) (tr : List InsertCall)
    (store : EvidenceStore) : Prop where
  indexed : store.Indexed
  bounded : store.Bounded
  capacity : store.capacity = max capacity 64
  origin : ∀ id stored, store.byId.get id = some stored →
    ∃ call ∈ tr, id = codec.evidenceId call.draft ∧ stored = object id call.draft

open EvidenceStore

theorem Sound.new (codec : EvidenceCodec) (capacity : Nat) :
    Sound codec capacity [] (new capacity) := by
  refine ⟨⟨nodup_nil, fun id => ?_, fun id => ?_⟩, .inl (Nat.zero_le _), rfl,
    fun id stored hget => ?_⟩
  · exact iff_of_false not_mem_nil false_ne_true
  · exact iff_of_false not_mem_nil false_ne_true
  · cases hget

/-- Each insertion keeps it. -/
theorem Sound.step (h : Sound codec capacity tr store) (hs : InsertStep codec store call store') :
    Sound codec capacity (tr ++ [call]) store' := by
  have heffect := insert_spec codec h.indexed h.bounded call.draft call.retention
  rw [InsertStep] at hs
  rw [hs] at heffect
  generalize (store.insertWithRetention codec call.draft call.retention).1 = report at heffect
  have hearlier : ∀ id stored, store.byId.get id = some stored →
      ∃ call' ∈ tr ++ [call],
        id = codec.evidenceId call'.draft ∧ stored = object id call'.draft := by
    intro id stored hget
    obtain ⟨call', hin, hcall⟩ := h.origin id stored hget
    exact ⟨call', mem_append_left _ hin, hcall⟩
  have hpushed : ∀ id stored,
      (store.pushed (codec.evidenceId call.draft) call.draft call.retention).byId.get id =
        some stored →
      ∃ call' ∈ tr ++ [call],
        id = codec.evidenceId call'.draft ∧ stored = object id call'.draft := by
    intro id stored hget
    rw [EvidenceStore.pushed, get_insert] at hget
    split_ifs at hget with heq
    · exact ⟨call, mem_append_right _ (mem_singleton_self _), heq,
        heq ▸ (Option.some.inj hget).symm⟩
    · exact hearlier id stored hget
  have hdropped : ∀ gone id stored,
      ((store.pushed (codec.evidenceId call.draft) call.draft call.retention).dropped
        gone).byId.get id = some stored →
      ∃ call' ∈ tr ++ [call],
        id = codec.evidenceId call'.draft ∧ stored = object id call'.draft := by
    intro gone id stored hget
    rw [EvidenceStore.dropped, get_erase] at hget
    split_ifs at hget
    exact hpushed id stored hget
  cases heffect with
  | duplicate hstored =>
    refine ⟨h.indexed.raised hstored, ?_, h.capacity, hearlier⟩
    exact h.bounded.imp_right fun hall id hid => evictable_raised (hall id hid)
  | kept hnew hroom =>
    refine ⟨h.indexed.pushed hnew, ?_, h.capacity, hpushed⟩
    obtain hfits | ⟨hall, hhigh⟩ := hroom
    · refine .inl ?_
      rw [size_pushed h.indexed hnew]
      exact hfits
    · refine .inr fun id hid => ?_
      rw [evictable_pushed]
      split_ifs with heq
      · exact decide_eq_false hhigh.not_gt
      · obtain hid | hid := mem_append.mp hid
        · exact hall id hid
        · exact absurd (mem_singleton.mp hid) heq
  | evicted oldest hnew hfull hin hevict =>
    refine ⟨(h.indexed.pushed hnew).dropped oldest, .inl ?_, h.capacity, hdropped oldest⟩
    have hpushed : (store.pushed (codec.evidenceId call.draft) call.draft call.retention).Indexed :=
      h.indexed.pushed hnew
    have hsize := size_dropped hpushed (mem_append_left _ hin)
    rw [size_pushed h.indexed hnew, Nat.add_right_cancel_iff] at hsize
    rw [hsize]
    exact hfull.le
  | crowded hnew hfull hall hlow =>
    refine ⟨(h.indexed.pushed hnew).dropped _, .inr fun id hid => ?_, h.capacity, hdropped _⟩
    obtain ⟨hne, hid⟩ := (h.indexed.pushed hnew).nodup.mem_erase_iff.mp hid
    rw [evictable_dropped hne, evictable_pushed, if_neg hne]
    obtain hid | hid := mem_append.mp hid
    · exact hall id hid
    · exact absurd (mem_singleton.mp hid) hne

theorem sound_of_run (hrun : Run (InsertStep codec) (.new capacity) tr store) :
    Sound codec capacity tr store := by
  refine Run.forward_induction (Sound.new codec capacity) ?_ hrun
  intro tr store call store' _ ih hs
  exact ih.step hs

/-- **Retention and identity.**  After any run of insertions: what one more inserts is there
unless it crowds the store, what is stored came from an insertion and has the id of its
fields if that insertion's confidence was in range, protected objects stay, the others are
within the capacity, and the indexes hold ids of stored objects only. -/
theorem evidence_retained (hrun : Run (InsertStep codec) (.new capacity) tr store) :
    (∀ draft retention, ((store.insertWithRetention codec draft retention).2.get
        (store.insertWithRetention codec draft retention).1.id).isSome ↔
      ¬ store.Crowded codec draft retention) ∧
    (∀ id stored, store.get id = some stored → stored.id = id ∧
      ∃ call ∈ tr, id = codec.evidenceId call.draft ∧ stored = object id call.draft ∧
        (call.draft.confidence.InUnit → id = codec.evidenceId stored.toEvidenceDraft)) ∧
    (∀ tr' store' id stored, Run (InsertStep codec) store tr' store' →
      store.get id = some stored → store.evictable id = false →
      store'.get id = some stored ∧ store'.evictable id = false) ∧
    (store.byId.entries.filter fun e => store.evictable e.1).length ≤ max capacity 64 ∧
    (∀ id ∈ store.order, (store.get id).isSome) ∧
    ∀ id, (store.retention.get id).isSome → (store.get id).isSome := by
  have hsound := sound_of_run hrun
  refine ⟨?_, ?_, ?_, ?_, ?_, ?_⟩
  · intro draft retention
    exact (insert_spec codec hsound.indexed hsound.bounded draft retention).returned
      hsound.indexed
  · intro id stored hget
    obtain ⟨call, hin, hid, hstored⟩ := hsound.origin id stored hget
    refine ⟨hstored ▸ rfl, call, hin, hid, hstored, fun hunit => ?_⟩
    rw [hid, hstored]
    show codec.evidenceId call.draft =
      codec.evidenceId { call.draft with confidence := call.draft.confidence.clampUnit }
    rw [F32.clampUnit_eq hunit]
  · intro tr' store' id stored hrun' hget hprotected
    suffices hkept : Sound codec capacity (tr ++ tr') store' ∧ store'.get id = some stored ∧
        store'.evictable id = false from hkept.2
    refine Run.forward_induction (P := fun tr' store' => Sound codec capacity (tr ++ tr') store' ∧
      store'.get id = some stored ∧ store'.evictable id = false) ?_ ?_ hrun'
    · exact ⟨(append_nil tr).symm ▸ hsound, hget, hprotected⟩
    · intro tr₁ store₁ call store₂ _ ih hs
      obtain ⟨hsound₁, hget₁, hprotected₁⟩ := ih
      refine ⟨(append_assoc tr tr₁ [call]) ▸ hsound₁.step hs, ?_⟩
      have heffect := insert_spec codec hsound₁.indexed hsound₁.bounded call.draft call.retention
      rw [show (store₁.insertWithRetention codec call.draft call.retention).2 = store₂ from hs]
        at heffect
      exact heffect.keeps hget₁ hprotected₁
  · obtain hle | hall := hsound.bounded
    · rw [← hsound.capacity]
      exact (length_filter_le _ _).trans hle
    · have hnone : (store.byId.entries.filter fun e => store.evictable e.1) = [] := by
        rw [filter_eq_nil_iff]
        intro e he hevict
        have hin : e.1 ∈ store.order := by
          rw [hsound.indexed.stored, AssocMap.get_isSome_iff]
          exact mem_map_of_mem he
        rw [hall e.1 hin] at hevict
        cases hevict
      rw [hnone]
      exact Nat.zero_le _
  · exact fun id hid => (hsound.indexed.stored id).mp hid
  · exact fun id hid => (hsound.indexed.stored id).mp ((hsound.indexed.tiered id).mpr hid)

/-- Pinned objects are all kept, and beyond the capacity they crowd the store. -/
theorem pinned_crowd (hpinned : ∀ call ∈ tr, call.retention = .pinned)
    (hrun : Run (InsertStep codec) (.new capacity) tr store) :
    (∀ id ∈ store.order, store.evictable id = false) ∧
      ∀ call ∈ tr, codec.evidenceId call.draft ∈ store.order := by
  suffices hall : Sound codec capacity tr store ∧ ((∀ call ∈ tr, call.retention = .pinned) →
      (∀ id ∈ store.order, store.evictable id = false) ∧
        ∀ call ∈ tr, codec.evidenceId call.draft ∈ store.order) from hall.2 hpinned
  refine Run.forward_induction (P := fun tr store => Sound codec capacity tr store ∧
    ((∀ call ∈ tr, call.retention = .pinned) →
      (∀ id ∈ store.order, store.evictable id = false) ∧
        ∀ call ∈ tr, codec.evidenceId call.draft ∈ store.order)) ?_ ?_ hrun
  · exact ⟨Sound.new codec capacity, fun _ =>
      ⟨fun id hid => absurd hid not_mem_nil, fun call hcall => absurd hcall not_mem_nil⟩⟩
  intro tr store call store' _ ih hs
  refine ⟨ih.1.step hs, fun hpinned => ?_⟩
  obtain ⟨hsound, hall⟩ := ih
  obtain ⟨hall, hthere⟩ := hall fun call' hin => hpinned call' (mem_append_left _ hin)
  have hcall := hpinned call (mem_append_right _ (mem_singleton_self _))
  have heffect := insert_spec codec hsound.indexed hsound.bounded call.draft call.retention
  rw [InsertStep] at hs
  rw [hs] at heffect
  generalize (store.insertWithRetention codec call.draft call.retention).1 = report at heffect
  have hlow : ¬ call.retention.rank < baseline.rank := by
    rw [hcall]
    decide
  cases heffect with
  | duplicate hstored =>
    refine ⟨fun id hid => evictable_raised (hall id hid), fun call' hin => ?_⟩
    obtain hin | hin := mem_append.mp hin
    · exact hthere call' hin
    · rw [mem_singleton.mp hin]
      exact (hsound.indexed.stored _).mpr hstored
  | kept =>
    refine ⟨fun id hid => ?_, fun call' hin => ?_⟩
    · rw [evictable_pushed]
      split_ifs with heq
      · exact decide_eq_false hlow
      · obtain hid | hid := mem_append.mp hid
        · exact hall id hid
        · exact absurd (mem_singleton.mp hid) heq
    · obtain hin | hin := mem_append.mp hin
      · exact mem_append_left _ (hthere call' hin)
      · rw [mem_singleton.mp hin]
        exact mem_append_right _ (mem_singleton_self _)
  | evicted oldest _ _ hin hevict =>
    rw [hall oldest hin] at hevict
    cases hevict
  | crowded _ _ _ hlow' => exact absurd hlow' hlow

/-- What a list of insertions leaves. -/
def insertAll (codec : EvidenceCodec) (store : EvidenceStore) (tr : List InsertCall) :
    EvidenceStore :=
  tr.foldl (fun store call => (store.insertWithRetention codec call.draft call.retention).2) store

theorem run_insertAll (codec : EvidenceCodec) (store : EvidenceStore) (tr : List InsertCall) :
    Run (InsertStep codec) store tr (store.insertAll codec tr) := by
  induction tr generalizing store with
  | nil => exact Run.nil store
  | cons call tr ih => exact Run.cons rfl (ih _)

end

/-- The whole number in the bits of an `f32` that is at least one. -/
def wholePart (x : F32) : Nat := (2 ^ 23 + x.toNat % 2 ^ 23) / 2 ^ (150 - x.toNat / 2 ^ 23)

/-- A hash of the confidence, which comes first. -/
def sampleCodec : EvidenceCodec where
  sha256Hex text := String.ofList ((text.drop 14).takeWhile Char.isDigit)
  floatText x := toString (wholePart x) ++ ".0"
  timeText _ := "1970-01-01T00:00:01Z"

def sampleDraft (confidence : F32) : EvidenceDraft where
  kind := .layout
  sessionId := 1
  region := some "hero"
  payload := .object [("b", .number "2"), ("a", .number "1")]
  provenance := ⟨"layout-engine", some "native", some "abc", [], 1⟩
  confidence
  uncertainty := .observed
  secretTaint := false

theorem evidence_retained_run :
    let store := (new 0).insertAll sampleCodec
      [⟨sampleDraft 0x3F800000#32, .session⟩]
    ((store.insertWithRetention sampleCodec (sampleDraft 0x40000000#32) .session).2.get
      (store.insertWithRetention sampleCodec (sampleDraft 0x40000000#32) .session).1.id).isSome =
        true := by
  intro store
  have hrun := run_insertAll sampleCodec (.new 0) [⟨sampleDraft 0x3F800000#32, .session⟩]
  refine ((evidence_retained hrun).1 _ _).mpr fun hcrowded => ?_
  exact absurd hcrowded.2.1 (by decide +kernel)

/-- Sixty-four confidences above one, from 64.0 on. -/
def sampleConfidence (n : Nat) : F32 := 0x42800000#32 + BitVec.ofNat 32 (n * 2 ^ 17)

def samplePinned : List InsertCall :=
  (List.range 64).map fun n => ⟨sampleDraft (sampleConfidence n), .pinned⟩

theorem ids_samplePinned : (samplePinned.map fun call => sampleCodec.evidenceId call.draft) =
    (List.range 64).map fun n => "ev_" ++ toString (64 + n) := by
  decide +kernel

/-- Sixty-four pinned objects leave no room for one of a session, and a confidence above one
is not the one the id was made from. -/
theorem evidence_not_retained :
    ∃ codec capacity tr store, Run (InsertStep codec) (.new capacity) tr store ∧
      (∃ draft retention, ((store.insertWithRetention codec draft retention).2.get
        (store.insertWithRetention codec draft retention).1.id).isSome = false) ∧
      ∃ id stored, store.get id = some stored ∧
        stored.id ≠ codec.evidenceId stored.toEvidenceDraft := by
  have hrun := run_insertAll sampleCodec (.new 64) samplePinned
  have hsound := sound_of_run hrun
  have hnew : sampleCodec.evidenceId (sampleDraft 0x3F800000#32) = "ev_1" := by decide +kernel
  have hids : ∀ call ∈ samplePinned, sampleCodec.evidenceId call.draft ≠ "ev_1" := by
    have hout : "ev_1" ∉ samplePinned.map fun call => sampleCodec.evidenceId call.draft := by
      rw [ids_samplePinned]
      decide +kernel
    exact fun call hin heq => hout (mem_map.mpr ⟨call, hin, heq⟩)
  have hpinned : ∀ call ∈ samplePinned, call.retention = .pinned := by decide
  obtain ⟨hall, hthere⟩ := pinned_crowd hpinned hrun
  refine ⟨sampleCodec, 64, samplePinned, _, hrun, ⟨sampleDraft 0x3F800000#32, .session, ?_⟩, ?_⟩
  · have hfull : samplePinned.length ≤ ((new 64).insertAll sampleCodec
        samplePinned).order.length := by
      have hnodup : (samplePinned.map fun call => sampleCodec.evidenceId call.draft).Nodup := by
        rw [ids_samplePinned]
        decide +kernel
      have hsub : (samplePinned.map fun call => sampleCodec.evidenceId call.draft) ⊆
          ((new 64).insertAll sampleCodec samplePinned).order := by
        intro id hid
        obtain ⟨call, hin, rfl⟩ := mem_map.mp hid
        exact hthere call hin
      have hlen := (subperm_of_subset hnodup hsub).length_le
      rwa [length_map] at hlen
    refine Bool.eq_false_of_not_eq_true fun hsome => ?_
    refine ((insert_spec sampleCodec hsound.indexed hsound.bounded _ _).returned
      hsound.indexed).mp hsome ⟨?_, ?_, hall, by decide⟩
    · rw [hnew]
      cases hget : ((new 64).insertAll sampleCodec samplePinned).get "ev_1" with
      | none => rfl
      | some stored =>
        obtain ⟨call, hin, hid, -⟩ := hsound.origin "ev_1" stored hget
        exact absurd hid.symm (hids call hin)
    · rw [hsound.capacity, hsound.indexed.size]
      exact hfull
  · have hfirst : (⟨sampleDraft (sampleConfidence 0), .pinned⟩ : InsertCall) ∈ samplePinned :=
      mem_map.mpr ⟨0, by decide, rfl⟩
    obtain ⟨stored, hstored⟩ := Option.isSome_iff_exists.mp
      ((hsound.indexed.stored _).mp (hthere _ hfirst))
    refine ⟨_, stored, hstored, ?_⟩
    obtain ⟨call, hin, hid, rfl⟩ := hsound.origin _ stored hstored
    obtain ⟨n, hn, rfl⟩ := mem_map.mp hin
    have hclamp : ∀ n ∈ List.range 64, (sampleConfidence n).clampUnit = 0x3F800000#32 := by decide
    show sampleCodec.evidenceId _ ≠ sampleCodec.evidenceId
      (sampleDraft (sampleConfidence n).clampUnit)
    rw [hclamp n hn, hnew]
    exact hids _ hfirst

end EvidenceStore
end Localview
