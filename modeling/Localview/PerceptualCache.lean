import Localview.JoinedFields
import Localview.OrderedSet
import Localview.Protocol
import Mathlib.Data.List.Induction
import Mathlib.Data.String.Basic

/-! # The perceptual cache

`PerceptualCache` of `time-travel/src/lib.rs`: what was captured of a region, kept under a
key of six fields.  The cache files an entry under the text `stable_key` makes of its key,
the fields with a bar between them, and looks keys up by that text.

The fields other than the session are free text, so a field with a bar in it makes the text
of another key as well (`exists_same_stableKey`).  Every key is answered rightly at every
point of a run just when no key that is put has such a field (`get_faithful_iff`).
-/
namespace Localview
open JoinedFields List OrderedMap

/-- What a perception is of. -/
structure CacheKey where
  sessionId : Uuid
  (revision environmentHash route viewport region : String)
  deriving DecidableEq

structure PerceptualCacheEntry where
  key : CacheKey
  objectHashes : List String
  sourceDependencies : OrderedSet String
  createdAt : Timestamp
  deriving DecidableEq

def CacheKey.stableKey (key : CacheKey) : String :=
  key.sessionId.display ++ "|" ++ key.revision ++ "|" ++ key.environmentHash ++ "|" ++
    key.route ++ "|" ++ key.viewport ++ "|" ++ key.region

/-- Perceptions by the text of their key. -/
structure PerceptualCache where
  entries : OrderedMap String PerceptualCacheEntry

def PerceptualCacheEntry.dependsOn (entry : PerceptualCacheEntry)
    (changedFiles : OrderedSet String) : Bool :=
  entry.sourceDependencies.toList.any changedFiles.contains

namespace PerceptualCache

/-- `default` -/
def empty : PerceptualCache := ⟨OrderedMap.empty⟩

section
variable (cache : PerceptualCache)

def put (entry : PerceptualCacheEntry) : PerceptualCache :=
  ⟨cache.entries.insert entry.key.stableKey entry⟩

def get (key : CacheKey) : Option PerceptualCacheEntry :=
  cache.entries.get key.stableKey

/-- `invalidate_changed_sources`: the cache without the entries that depend on one of the
files, and what those were filed under. -/
def invalidateChangedSources (changedFiles : OrderedSet String) :
    PerceptualCache × List String :=
  let invalid := (cache.entries.entries.filter fun e => e.2.dependsOn changedFiles).map Prod.fst
  (⟨invalid.foldl OrderedMap.erase cache.entries⟩, invalid)

/-- `invalidate_revision`: the entries of the revision stay, and how many went. -/
def invalidateRevision (revision : String) : PerceptualCache × Nat :=
  let kept := cache.entries.retain fun _ entry => decide (entry.key.revision = revision)
  (⟨kept⟩, cache.entries.size - kept.size)

def releaseSession (sessionId : Uuid) : PerceptualCache :=
  ⟨cache.entries.retain fun _ entry => decide (entry.key.sessionId ≠ sessionId)⟩

end

end PerceptualCache

/-! ## Runs -/

/-- A call of the cache. -/
inductive CacheOp
  | put (entry : PerceptualCacheEntry)
  | get (key : CacheKey)
  | invalidateChangedSources (changedFiles : OrderedSet String)
  | invalidateRevision (revision : String)
  | releaseSession (sessionId : Uuid)

namespace CacheOp
open PerceptualCache

/-- The cache after the operation. -/
def perform (cache : PerceptualCache) : CacheOp → PerceptualCache
  | put entry => cache.put entry
  | get _ => cache
  | invalidateChangedSources changedFiles => (cache.invalidateChangedSources changedFiles).1
  | invalidateRevision revision => (cache.invalidateRevision revision).1
  | releaseSession sessionId => cache.releaseSession sessionId

/-- The operation takes the entry out. -/
def covers : CacheOp → PerceptualCacheEntry → Bool
  | put _, _ | get _, _ => false
  | invalidateChangedSources changedFiles, entry => entry.dependsOn changedFiles
  | invalidateRevision revision, entry => decide (entry.key.revision ≠ revision)
  | releaseSession sessionId, entry => decide (entry.key.sessionId = sessionId)

/-- What is known of a key after the operation, where each key is told from every other. -/
def remember (key : CacheKey) (known : Option PerceptualCacheEntry) :
    CacheOp → Option PerceptualCacheEntry
  | put entry => if entry.key = key then some entry else known
  | op => known.filter fun entry => !op.covers entry

end CacheOp

open CacheOp

/-- The cache after the operations. -/
def cacheAfter (ops : List CacheOp) : PerceptualCache :=
  ops.foldl perform PerceptualCache.empty

/-- The entry most recently put under the key, unless a later operation covers it. -/
def lastPut (ops : List CacheOp) (key : CacheKey) : Option PerceptualCacheEntry :=
  ops.foldl (remember key) none

/-- The cache answers for every key as the operations say, and an invalidation by files
takes out the entries that depend on one of them and no others. -/
structure FaithfulMap (ops : List CacheOp) (cache : PerceptualCache) : Prop where
  reads : ∀ key, cache.get key = lastPut ops key
  removes : ∀ (changedFiles : OrderedSet String) (slot : String) (entry : PerceptualCacheEntry),
    (cache.invalidateChangedSources changedFiles).1.entries.get slot = some entry ↔
      cache.entries.get slot = some entry ∧ entry.dependsOn changedFiles = false
  reports : ∀ (changedFiles : OrderedSet String) (slot : String),
    slot ∈ (cache.invalidateChangedSources changedFiles).2 ↔
      ∃ entry, cache.entries.get slot = some entry ∧ entry.dependsOn changedFiles = true

/-! ## Keys and their texts -/

/-- The number from its lowest digits. -/
theorem eq_of_digits {count n m : Nat} (hn : n < 16 ^ count) (hm : m < 16 ^ count)
    (h : ∀ i < count, n / 16 ^ i % 16 = m / 16 ^ i % 16) : n = m := by
  induction count generalizing n m with
  | zero =>
    rw [Nat.pow_zero] at hn hm
    omega
  | succ count ih =>
    have hlow := h 0 (Nat.succ_pos count)
    rw [Nat.pow_zero, Nat.div_one, Nat.div_one] at hlow
    have hhigh : n / 16 = m / 16 := by
      refine ih ?_ ?_ ?_
      · rw [Nat.pow_succ] at hn
        omega
      · rw [Nat.pow_succ] at hm
        omega
      · intro i hi
        have hdigit := h (i + 1) (Nat.succ_lt_succ hi)
        rw [Nat.pow_succ', ← Nat.div_div_eq_div_mul, ← Nat.div_div_eq_div_mul] at hdigit
        exact hdigit
    omega

/-- The digits of a session id are read off its text. -/
theorem display_injective : Function.Injective Uuid.display := by
  intro u v h
  have hchar : ∀ x < 16, ∀ y < 16, Nat.digitChar x = Nat.digitChar y → x = y := by decide
  have hchars := congrArg String.toList h
  simp only [Uuid.display, String.toList_ofList] at hchars
  obtain ⟨hchars, hfifth⟩ := append_inj' hchars (by simp)
  obtain ⟨hchars, hfourth⟩ := append_inj' hchars (by simp)
  obtain ⟨hchars, hthird⟩ := append_inj' hchars (by simp)
  obtain ⟨hfirst, hsecond⟩ := append_inj' hchars (by simp)
  have hdigit : ∀ j < 32, Nat.digitChar (u.toNat / 16 ^ (31 - j) % 16) =
      Nat.digitChar (v.toNat / 16 ^ (31 - j) % 16) := by
    intro j hj
    by_cases h8 : j < 8
    · exact map_inj_left.mp hfirst j (mem_range'_1.mpr (by omega))
    by_cases h12 : j < 12
    · exact map_inj_left.mp (List.cons.inj hsecond).2 j (mem_range'_1.mpr (by omega))
    by_cases h16 : j < 16
    · exact map_inj_left.mp (List.cons.inj hthird).2 j (mem_range'_1.mpr (by omega))
    by_cases h20 : j < 20
    · exact map_inj_left.mp (List.cons.inj hfourth).2 j (mem_range'_1.mpr (by omega))
    · exact map_inj_left.mp (List.cons.inj hfifth).2 j (mem_range'_1.mpr (by omega))
  apply BitVec.eq_of_toNat_eq
  have hpow : 2 ^ 128 = 16 ^ 32 := by decide
  refine @eq_of_digits 32 _ _ (hpow ▸ u.isLt) (hpow ▸ v.isLt) ?_
  intro i hi
  have hj := hdigit (31 - i) (by omega)
  rw [show 31 - (31 - i) = i by omega] at hj
  exact hchar _ (Nat.mod_lt _ (by omega)) _ (Nat.mod_lt _ (by omega)) hj

theorem bar_not_mem_display (u : Uuid) : '|' ∉ u.display.toList := by
  have hchar : ∀ x < 16, Nat.digitChar x ≠ '|' := by decide
  intro hmem
  simp only [Uuid.display, String.toList_ofList, mem_append, mem_cons,
    mem_map] at hmem
  rcases hmem with (((⟨i, -, hi⟩ | hdash | ⟨i, -, hi⟩) | hdash | ⟨i, -, hi⟩) | hdash | ⟨i, -, hi⟩) |
    hdash | ⟨i, -, hi⟩
  all_goals first
    | exact hchar _ (Nat.mod_lt _ (by omega)) hi
    | exact absurd hdash (by decide)

/-- The fields of a key, as the text has them. -/
def CacheKey.fields (key : CacheKey) : List (List Char) :=
  [key.sessionId.display.toList, key.revision.toList, key.environmentHash.toList,
    key.route.toList, key.viewport.toList, key.region.toList]

def CacheKey.BarFree (key : CacheKey) : Prop := ∀ field ∈ key.fields, '|' ∉ field

@[simp] theorem CacheKey.length_fields (key : CacheKey) : key.fields.length = 6 := rfl

open CacheKey

theorem CacheKey.fields_injective {key key' : CacheKey} (h : key.fields = key'.fields) :
    key = key' := by
  obtain ⟨session, revision, environment, route, viewport, region⟩ := key
  obtain ⟨session', revision', environment', route', viewport', region'⟩ := key'
  simp only [fields, List.cons.injEq, String.toList_inj, and_true] at h
  obtain ⟨hsession, rfl, rfl, rfl, rfl, rfl⟩ := h
  rw [display_injective hsession]

theorem CacheKey.toList_stableKey (key : CacheKey) :
    key.stableKey.toList = joined '|' key.fields := by
  simp [stableKey, fields, joined, String.toList_append]

/-- A key without bars is the only one of its text. -/
theorem CacheKey.BarFree.eq {key key' : CacheKey} (hfree : key.BarFree)
    (h : key.stableKey = key'.stableKey) : key = key' := by
  apply fields_injective
  have hlen : key.fields.length = key'.fields.length := by
    rw [length_fields, length_fields]
  refine joined_inj hlen hfree ?_
  rw [← toList_stableKey, ← toList_stableKey, h]

/-- A key with a bar in a field shares its text with another key: what stands behind the
bar may as well belong to the next field, or what stands before it to the field before. -/
theorem exists_same_stableKey {key : CacheKey} (h : ¬ key.BarFree) :
    ∃ key' : CacheKey, key' ≠ key ∧ key'.stableKey = key.stableKey := by
  obtain ⟨session, revision, environment, route, viewport, region⟩ := key
  have hsame : ∀ {k k' : CacheKey}, joined '|' k'.fields = joined '|' k.fields →
      k'.stableKey = k.stableKey := by
    intro k k' h
    rw [← String.toList_inj, toList_stableKey, toList_stableKey, h]
  have hlonger : ∀ {s : String} {x y : List Char}, s.toList = x ++ '|' :: y →
      String.ofList x ≠ s ∧ String.ofList y ≠ s := by
    intro s x y hs
    have hlen := congrArg List.length hs
    rw [length_append, length_cons] at hlen
    constructor
    · rintro rfl
      rw [String.toList_ofList] at hlen
      omega
    · rintro rfl
      rw [String.toList_ofList] at hlen
      omega
  simp only [CacheKey.BarFree, fields, forall_mem_cons, not_and_or, not_not] at h
  rcases h with hbar | hbar | hbar | hbar | hbar | hbar | hbar
  · exact absurd hbar (bar_not_mem_display session)
  · obtain ⟨x, y, hxy⟩ := append_of_mem hbar
    refine ⟨⟨session, .ofList x, .ofList (y ++ '|' :: environment.toList), route, viewport, region⟩,
      fun heq => (hlonger hxy).1 (mk.inj heq).2.1, hsame ?_⟩
    simp only [fields, hxy, String.toList_ofList]
    exact (joined_shift [_] _ _ _ _).symm
  · obtain ⟨x, y, hxy⟩ := append_of_mem hbar
    refine ⟨⟨session, revision, .ofList x, .ofList (y ++ '|' :: route.toList), viewport, region⟩,
      fun heq => (hlonger hxy).1 (mk.inj heq).2.2.1, hsame ?_⟩
    simp only [fields, hxy, String.toList_ofList]
    exact (joined_shift [_, _] _ _ _ _).symm
  · obtain ⟨x, y, hxy⟩ := append_of_mem hbar
    refine ⟨⟨session, revision, environment, .ofList x, .ofList (y ++ '|' :: viewport.toList), region⟩,
      fun heq => (hlonger hxy).1 (mk.inj heq).2.2.2.1, hsame ?_⟩
    simp only [fields, hxy, String.toList_ofList]
    exact (joined_shift [_, _, _] _ _ _ _).symm
  · obtain ⟨x, y, hxy⟩ := append_of_mem hbar
    refine ⟨⟨session, revision, environment, route, .ofList x, .ofList (y ++ '|' :: region.toList)⟩,
      fun heq => (hlonger hxy).1 (mk.inj heq).2.2.2.2.1, hsame ?_⟩
    simp only [fields, hxy, String.toList_ofList]
    exact (joined_shift [_, _, _, _] _ _ _ _).symm
  · -- the last field gives what stands before the bar to the field before it
    obtain ⟨x, y, hxy⟩ := append_of_mem hbar
    refine ⟨⟨session, revision, environment, route, .ofList (viewport.toList ++ '|' :: x), .ofList y⟩,
      fun heq => (hlonger hxy).2 (mk.inj heq).2.2.2.2.2, hsame ?_⟩
    simp only [fields, hxy, String.toList_ofList]
    exact joined_shift [_, _, _, _] _ _ _ _
  · exact absurd hbar (by simp)

/-! ## Runs against the operations -/

section
variable {ops : List CacheOp} {op : CacheOp} {cache : PerceptualCache} {key : CacheKey}
  {slot : String} {entry : PerceptualCacheEntry}

theorem get_foldl_erase {slots : List String} {m : OrderedMap String PerceptualCacheEntry} :
    (slots.foldl OrderedMap.erase m).get slot = some entry ↔
      m.get slot = some entry ∧ slot ∉ slots := by
  induction slots generalizing m with
  | nil => simp
  | cons first slots ih =>
    rw [foldl_cons, ih, get_erase_eq_some, mem_cons, not_or, and_assoc]

theorem mem_invalid {changedFiles : OrderedSet String} :
    slot ∈ (cache.invalidateChangedSources changedFiles).2 ↔
      ∃ entry, cache.entries.get slot = some entry ∧ entry.dependsOn changedFiles = true := by
  rw [PerceptualCache.invalidateChangedSources, mem_map]
  constructor
  · rintro ⟨⟨_, entry⟩, hmem, rfl⟩
    obtain ⟨hentry, hdepends⟩ := mem_filter.mp hmem
    exact ⟨entry, OrderedMap.mem_entries.mp hentry, hdepends⟩
  · rintro ⟨entry, hentry, hdepends⟩
    exact ⟨(slot, entry), mem_filter.mpr ⟨OrderedMap.mem_entries.mpr hentry, hdepends⟩, rfl⟩

theorem get_invalidateChangedSources {changedFiles : OrderedSet String} :
    (cache.invalidateChangedSources changedFiles).1.entries.get slot = some entry ↔
      cache.entries.get slot = some entry ∧ entry.dependsOn changedFiles = false := by
  have hinvalid := @mem_invalid cache slot changedFiles
  rw [show (cache.invalidateChangedSources changedFiles).1.entries =
    (cache.invalidateChangedSources changedFiles).2.foldl OrderedMap.erase cache.entries from rfl,
    get_foldl_erase, hinvalid]
  refine and_congr_right fun hentry => ?_
  constructor
  · intro hnone
    rw [Bool.eq_false_iff]
    intro hdepends
    exact hnone ⟨entry, hentry, hdepends⟩
  · rintro hkeeps ⟨other, hother, hdepends⟩
    obtain rfl := Option.some.inj (hentry.symm.trans hother)
    rw [hkeeps] at hdepends
    cases hdepends

/-- What an operation other than a `put` leaves in a slot. -/
theorem get_perform (hput : ∀ entry, op ≠ .put entry) :
    (op.perform cache).entries.get slot =
      (cache.entries.get slot).filter fun entry => !op.covers entry := by
  ext entry
  rw [Option.filter_eq_some_iff]
  cases op with
  | put entry => exact absurd rfl (hput entry)
  | get key => simp [perform, covers]
  | invalidateChangedSources changedFiles =>
    simp only [perform, covers, get_invalidateChangedSources, Bool.not_eq_true']
  | invalidateRevision revision =>
    simp only [perform, covers, PerceptualCache.invalidateRevision,
      get_retain_eq_some, decide_eq_true_iff, Bool.not_eq_true',
      decide_eq_false_iff_not, not_not]
  | releaseSession sessionId =>
    simp only [perform, covers, PerceptualCache.releaseSession,
      get_retain_eq_some, decide_eq_true_iff, Bool.not_eq_true',
      decide_eq_false_iff_not]

theorem remember_other {known : Option PerceptualCacheEntry} (hput : ∀ entry, op ≠ .put entry) :
    op.remember key known = known.filter fun entry => !op.covers entry := by
  cases op with
  | put entry => exact absurd rfl (hput entry)
  | _ => rfl

theorem cacheAfter_snoc : cacheAfter (ops ++ [op]) = op.perform (cacheAfter ops) := by
  rw [cacheAfter, foldl_append]
  rfl

theorem lastPut_snoc : lastPut (ops ++ [op]) key = op.remember key (lastPut ops key) := by
  rw [lastPut, foldl_append]
  rfl

/-- What is known of a key was put under it. -/
theorem key_of_lastPut (h : lastPut ops key = some entry) : entry.key = key := by
  induction ops using List.reverseRec with
  | nil => cases h
  | append_singleton ops op ih =>
    rw [lastPut_snoc] at h
    by_cases hput : ∃ put, op = .put put
    · obtain ⟨put, rfl⟩ := hput
      by_cases hkey : put.key = key
      · rw [remember, if_pos hkey] at h
        cases h
        exact hkey
      · rw [remember, if_neg hkey] at h
        exact ih h
    · rw [remember_other (fun put hop => hput ⟨put, hop⟩)] at h
      exact ih (Option.filter_eq_some_iff.mp h).1

/-- Where the keys put have no bars each key is answered as the operations say. -/
theorem get_cacheAfter (hfree : ∀ entry, put entry ∈ ops → entry.key.BarFree) :
    (cacheAfter ops).get key = lastPut ops key := by
  induction ops using List.reverseRec with
  | nil => rfl
  | append_singleton ops op ih =>
    have hbefore := ih fun entry hmem => hfree entry (mem_append_left _ hmem)
    rw [PerceptualCache.get] at hbefore
    rw [cacheAfter_snoc, lastPut_snoc, PerceptualCache.get]
    by_cases hput : ∃ put, op = .put put
    · obtain ⟨put, rfl⟩ := hput
      have hown : put.key.BarFree :=
        hfree put (mem_append_right _ (mem_singleton.mpr rfl))
      rw [perform, PerceptualCache.put, get_insert, remember, hbefore]
      by_cases hkey : put.key = key
      · rw [if_pos hkey, if_pos (by rw [hkey])]
      · rw [if_neg hkey, if_neg]
        intro hsame
        exact hkey (hown.eq hsame.symm)
    · have hother : ∀ entry, op ≠ .put entry := fun put hop => hput ⟨put, hop⟩
      rw [get_perform hother, remember_other hother, hbefore]

end

/-- **The cache as a map.**  At every point of a run each key is answered as the operations
say, and an invalidation by files takes out what depends on them, just when no key that is
put has a bar in its revision, environment, route, viewport or region. -/
theorem get_faithful_iff (ops : List CacheOp) :
    (∀ earlier later, ops = earlier ++ later → FaithfulMap earlier (cacheAfter earlier)) ↔
      ∀ entry, put entry ∈ ops → entry.key.BarFree := by
  constructor
  · intro hall entry hmem
    by_contra hbar
    obtain ⟨key, hne, hsame⟩ := exists_same_stableKey hbar
    obtain ⟨earlier, later, rfl⟩ := append_of_mem hmem
    -- the key of the same text reads the entry just put
    have hread := (hall (earlier ++ [.put entry]) later (by simp)).reads key
    rw [cacheAfter_snoc, lastPut_snoc, remember, if_neg (Ne.symm hne), perform,
      PerceptualCache.get, PerceptualCache.put, OrderedMap.get_insert, if_pos hsame] at hread
    exact hne (key_of_lastPut hread.symm).symm
  · rintro hfree earlier later rfl
    refine ⟨fun key => get_cacheAfter fun entry hmem => hfree entry (mem_append_left _ hmem),
      fun changedFiles slot entry => get_invalidateChangedSources,
      fun changedFiles slot => mem_invalid⟩

/-! ## Two keys of one text -/

def barredKey : CacheKey := ⟨7, "a|b", "env", "/", "desktop", "hero"⟩

def shiftedKey : CacheKey := ⟨7, "a", "b|env", "/", "desktop", "hero"⟩

def barredEntry : PerceptualCacheEntry := ⟨barredKey, [], OrderedSet.empty, 0⟩

/-- A key is answered with the entry of another. -/
theorem shiftedKey_answered : ¬ ∀ ops, FaithfulMap ops (cacheAfter ops) := by
  intro hall
  have hread := (hall [.put barredEntry]).reads shiftedKey
  revert hread
  decide +kernel

end Localview
