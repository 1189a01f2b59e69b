import Localview.ActionQueue
import Localview.OrderedMap
import Localview.EvictionQueue
import Localview.StateRun
import Localview.VisualImage
import Mathlib.Data.List.MinMax
import Mathlib.Data.Prod.Lex

/-! # The visual baseline cache

`VisualBaselineCache` of `crates/visual/src/baseline.rs`: one decoded image a session,
under a byte budget and an entry budget, the least recently used entry going first.  The
uses are stamped by a clock of the cache, and the projection of what an insertion leaves
goes over the stamps by itself.

Seen from outside the cache is a queue in order of use: `Queue` relates the two, and
eviction is `trim` there.  The clock and the byte total are machine integers that
saturate; nothing below is true of a cache whose clock has stopped, so the results carry
the condition that neither of them saturates.
-/
namespace Localview
open StateRun EarlyReturn RecencyQueue List OrderedMap

/-- Equality of doubles: a NaN equals nothing, and the zeros are equal. -/
def f64Eq (a b : F64) : Bool :=
  let nan (x : F64) : Bool := decide (0x7FF0000000000000#64 < x &&& 0x7FFFFFFFFFFFFFFF#64)
  !nan a && !nan b && (decide (a = b) || decide ((a ||| b) <<< 1 = 0#64))

/-- What an image is of. -/
structure VisualBaselineContext where
  route : String
  (cssWidth cssHeight : Nat)
  deviceScaleFactor : F64
  (pixelWidth pixelHeight : Nat)

/-- The derived `==` of contexts. -/
def VisualBaselineContext.eq (a b : VisualBaselineContext) : Bool :=
  decide (a.route = b.route) && decide (a.cssWidth = b.cssWidth) &&
    decide (a.cssHeight = b.cssHeight) && f64Eq a.deviceScaleFactor b.deviceScaleFactor &&
    decide (a.pixelWidth = b.pixelWidth) && decide (a.pixelHeight = b.pixelHeight)

/-- An image and its last use. -/
structure VisualBaselineEntry where
  context : VisualBaselineContext
  image : RgbaImage
  (bytes touchedAt : Nat)

/-- One image for each session. -/
structure VisualBaselineCache where
  entries : OrderedMap SessionId VisualBaselineEntry
  (byteBudget maxEntries usedBytes clock : Nat)

namespace VisualBaselineCache

def new (byteBudget maxEntries : Nat) : Except VisualError VisualBaselineCache :=
  if byteBudget = 0 ∨ maxEntries = 0 then .error .invalidBaselinePolicy
  else .ok { entries := .empty, byteBudget, maxEntries, usedBytes := 0, clock := 0 }

section
variable (cache : VisualBaselineCache)

def remove (sessionId : SessionId) : Bool × VisualBaselineCache :=
  match cache.entries.get sessionId with
  | none => (false, cache)
  | some entry =>
      (true, { cache with
        entries := cache.entries.erase sessionId
        usedBytes := cache.usedBytes - entry.bytes })

/-- What `next_tick` returns, and leaves in the clock. -/
def nextTick : Nat := min (cache.clock + 1) u64Max

def getCompatible (sessionId : SessionId)
    (context : VisualBaselineContext) : Option RgbaImage × VisualBaselineCache :=
  match cache.entries.get sessionId with
  | some entry =>
      if entry.context.eq context then
        (some entry.image, { cache with
          entries := cache.entries.insert sessionId { entry with touchedAt := cache.nextTick }
          clock := cache.nextTick })
      else (none, (cache.remove sessionId).2)
  | none => (none, (cache.remove sessionId).2)

/-- The condition of the loop of `evict_to_budget`. -/
def overBudget : Bool :=
  decide (cache.byteBudget < cache.usedBytes) || decide (cache.maxEntries < cache.entries.size)

/-- The first session, in key order, of those touched the longest ago. -/
def leastRecentlyUsed : Option SessionId :=
  (cache.entries.entries.argmin fun e => e.2.touchedAt).map Prod.fst

end

/-- The loop of `evict_to_budget`, as often as the first argument says at most. -/
def evictLoop : Nat → VisualBaselineCache → VisualBaselineCache
  | 0, cache => cache
  | n + 1, cache =>
      if cache.overBudget then
        match cache.leastRecentlyUsed with
        | none => cache
        | some lruSession => evictLoop n (cache.remove lruSession).2
      else cache

/-- `evict_to_budget`; each turn removes an entry. -/
def evictToBudget (cache : VisualBaselineCache) : VisualBaselineCache :=
  cache.evictLoop cache.entries.size

section
variable (cache : VisualBaselineCache) (sessionId : SessionId)

def insert (context : VisualBaselineContext) (image : RgbaImage) :
    Except VisualError Bool × VisualBaselineCache :=
  match image.validate with
  | .error e => (.error e, cache)
  | .ok () =>
      if context.pixelWidth ≠ image.width ∨ context.pixelHeight ≠ image.height then
        (.error .dimensionMismatch, cache)
      else
        let cache := (cache.remove sessionId).2
        let bytes := image.data.length
        if cache.byteBudget < bytes then (.ok false, cache)
        else
          let cache := evictToBudget { cache with
            entries := cache.entries.insert sessionId
              { context, image, bytes, touchedAt := cache.nextTick }
            usedBytes := min (cache.usedBytes + bytes) usizeMax
            clock := cache.nextTick }
          (.ok (cache.entries.get sessionId).isSome, cache)

def checkedSub (a b : Nat) : Option Nat := if b ≤ a then some (a - b) else none

def checkedAdd (a b : Nat) : Option Nat := if a + b ≤ usizeMax then some (a + b) else none

def projectLoop (byteBudget maxEntries : Nat) :
    Nat → Nat → List Nat → Except VisualError (Nat × Nat)
  | projectedBytes, projectedEntries, [] => .ok (projectedBytes, projectedEntries)
  | projectedBytes, projectedEntries, bytes :: candidates =>
      if projectedBytes ≤ byteBudget ∧ projectedEntries ≤ maxEntries then
        .ok (projectedBytes, projectedEntries)
      else do
        let projectedBytes ← okOr (checkedSub projectedBytes bytes) .invalidBuffer
        let projectedEntries ← okOr (checkedSub projectedEntries 1) .invalidBuffer
        projectLoop byteBudget maxEntries projectedBytes projectedEntries candidates

/-- The eviction candidates of an insertion, by stamp and then by session. -/
def evictionCandidates : List (SessionId × VisualBaselineEntry) :=
  (cache.entries.entries.filter fun e => decide (e.1 ≠ sessionId)).insertionSort fun a b =>
    toLex (a.2.touchedAt, a.1) ≤ toLex (b.2.touchedAt, b.1)

def projectedUsedBytesAfterInsert (imageBytes : Nat) : Except VisualError (Option Nat) := do
  rejectIf (imageBytes = 0) .invalidBuffer
  if cache.byteBudget < imageBytes then return none
  let existing := cache.entries.get sessionId
  let remaining ← okOr (checkedSub cache.usedBytes (existing.elim 0 (·.bytes))) .invalidBuffer
  let projectedBytes ← okOr (checkedAdd remaining imageBytes) .invalidBuffer
  let others ← okOr (checkedSub cache.entries.size existing.isSome.toNat) .invalidBuffer
  let projectedEntries ← okOr (checkedAdd others 1) .invalidBuffer
  let projected ← projectLoop cache.byteBudget cache.maxEntries projectedBytes projectedEntries
    ((cache.evictionCandidates sessionId).map (·.2.bytes))
  rejectIf (cache.byteBudget < projected.1 ∨ cache.maxEntries < projected.2)
    .invalidBaselinePolicy
  return some projected.1

end

end VisualBaselineCache

/-- A call on the cache, with its answer. -/
inductive BaselineCall
  | getCompatible (sessionId : SessionId) (context : VisualBaselineContext)
      (answer : Option RgbaImage)
  | insert (sessionId : SessionId) (context : VisualBaselineContext) (image : RgbaImage)
      (answer : Except VisualError Bool)
  | remove (sessionId : SessionId) (answer : Bool)

/-- The call is answered so, and leaves the cache so. -/
inductive BaselineStep (cache : VisualBaselineCache) : BaselineCall → VisualBaselineCache → Prop
  | getCompatible (sessionId : SessionId) (context : VisualBaselineContext) :
      BaselineStep cache
        (.getCompatible sessionId context (cache.getCompatible sessionId context).1)
        (cache.getCompatible sessionId context).2
  | insert (sessionId : SessionId) (context : VisualBaselineContext) (image : RgbaImage) :
      BaselineStep cache (.insert sessionId context image (cache.insert sessionId context image).1)
        (cache.insert sessionId context image).2
  | remove (sessionId : SessionId) :
      BaselineStep cache (.remove sessionId (cache.remove sessionId).1)
        (cache.remove sessionId).2

theorem BaselineStep.unique (cache : VisualBaselineCache) (call : BaselineCall)
    (cache₁ cache₂ : VisualBaselineCache) (h₁ : BaselineStep cache call cache₁)
    (h₂ : BaselineStep cache call cache₂) : cache₁ = cache₂ := by
  cases h₁ <;> cases h₂ <;> rfl

/-- The session a call used: one that hit, or that stored. -/
def BaselineCall.uses : BaselineCall → Option SessionId
  | .getCompatible sessionId _ (some _) => some sessionId
  | .insert sessionId _ _ (.ok true) => some sessionId
  | _ => none

/-! ## The cache as a queue -/

namespace VisualBaselineCache

/-- The bytes of the images a queue holds. -/
def heldBytes (q : List (SessionId × VisualBaselineEntry)) : Nat :=
  (q.map (·.2.image.data.length)).sum

/-- The queue is over one of the budgets. -/
def overLimits (byteBudget maxEntries : Nat) (q : List (SessionId × VisualBaselineEntry)) :
    Bool :=
  decide (byteBudget < heldBytes q) || decide (maxEntries < q.length)

variable {q : List (SessionId × VisualBaselineEntry)}

theorem overLimits_eq_false {byteBudget maxEntries : Nat} :
    overLimits byteBudget maxEntries q = false ↔
      heldBytes q ≤ byteBudget ∧ q.length ≤ maxEntries := by
  rw [overLimits, Bool.or_eq_false_iff, decide_eq_false_iff_not, decide_eq_false_iff_not,
    not_lt, not_lt]

section
variable (cache : VisualBaselineCache) (s : SessionId)

@[simp] theorem remove_byteBudget : (cache.remove s).2.byteBudget = cache.byteBudget := by
  rw [remove]
  cases cache.entries.get s <;> rfl

@[simp] theorem remove_maxEntries : (cache.remove s).2.maxEntries = cache.maxEntries := by
  rw [remove]
  cases cache.entries.get s <;> rfl

@[simp] theorem remove_clock : (cache.remove s).2.clock = cache.clock := by
  rw [remove]
  cases cache.entries.get s <;> rfl

theorem remove_get {k : SessionId} (hk : k ≠ s) :
    (cache.remove s).2.entries.get k = cache.entries.get k := by
  rw [remove]
  cases hget : cache.entries.get s with
  | none => rfl
  | some entry =>
    apply Option.ext
    intro entry'
    exact OrderedMap.get_erase_eq_some.trans (and_iff_left hk)

@[simp] theorem remove_nextTick : (cache.remove s).2.nextTick = cache.nextTick := by
  rw [nextTick, remove_clock, nextTick]

end

/-! ## The budgets -/

section
variable {cache cache' : VisualBaselineCache}

theorem evictLoop_budgets {n : Nat} : (cache.evictLoop n).byteBudget = cache.byteBudget ∧
    (cache.evictLoop n).maxEntries = cache.maxEntries := by
  induction n generalizing cache with
  | zero => exact ⟨rfl, rfl⟩
  | succ n ih =>
    rw [evictLoop]
    split_ifs
    · cases cache.leastRecentlyUsed with
      | none => exact ⟨rfl, rfl⟩
      | some s =>
        rw [← remove_byteBudget cache s, ← remove_maxEntries cache s]
        exact ih
    · exact ⟨rfl, rfl⟩

/-- No call changes a budget. -/
theorem step_budgets {call : BaselineCall} (hs : BaselineStep cache call cache') :
    cache'.byteBudget = cache.byteBudget ∧ cache'.maxEntries = cache.maxEntries := by
  have hremove : ∀ s, (cache.remove s).2.byteBudget = cache.byteBudget ∧
      (cache.remove s).2.maxEntries = cache.maxEntries := fun s =>
    ⟨remove_byteBudget cache s, remove_maxEntries cache s⟩
  cases hs with
  | getCompatible s context =>
    rw [getCompatible]
    cases cache.entries.get s with
    | none => exact hremove s
    | some entry =>
      dsimp only
      split_ifs
      · exact ⟨rfl, rfl⟩
      · exact hremove s
  | insert s context image =>
    rw [insert]
    cases image.validate with
    | error e => exact ⟨rfl, rfl⟩
    | ok u =>
      dsimp only
      split_ifs
      · exact ⟨rfl, rfl⟩
      · exact hremove s
      · obtain ⟨hbudget, hentries⟩ := hremove s
        exact ⟨evictLoop_budgets.1.trans hbudget, evictLoop_budgets.2.trans hentries⟩
  | remove s => exact hremove s

end

/-- What the cache holds, in order of use: its entries, stamped apart, each of the size of
its image, with the total of the sizes. -/
structure Queue (cache : VisualBaselineCache) (q : List (SessionId × VisualBaselineEntry)) :
    Prop where
  perm : q.Perm cache.entries.entries
  order : q.Pairwise fun a b => a.2.touchedAt < b.2.touchedAt
  past : ∀ e ∈ q, e.2.touchedAt ≤ cache.clock
  bytes : ∀ e ∈ q, e.2.bytes = e.2.image.data.length
  pos : ∀ e ∈ q, 0 < e.2.bytes
  used : cache.usedBytes = heldBytes q

namespace Queue
variable {cache : VisualBaselineCache} {q : List (SessionId × VisualBaselineEntry)}
  {s : SessionId} {entry : VisualBaselineEntry}

theorem keys (h : cache.Queue q) : (q.map Prod.fst).Nodup :=
  (h.perm.map Prod.fst).nodup_iff.mpr cache.entries.nodup_keys

theorem size (h : cache.Queue q) : cache.entries.size = q.length := h.perm.length_eq.symm

theorem get (h : cache.Queue q) : cache.entries.get s = some entry ↔ (s, entry) ∈ q := by
  rw [← mem_entries, h.perm.mem_iff]

theorem overBudget_eq (h : cache.Queue q) :
    cache.overBudget = overLimits cache.byteBudget cache.maxEntries q := by
  rw [overBudget, overLimits, h.used, h.size]

/-- A session's entry and the rest of the queue. -/
theorem split (h : cache.Queue q) (hmem : (s, entry) ∈ q) :
    q.Perm ((s, entry) :: q.filter fun e => decide (e.1 ≠ s)) := by
  have hq : q.Nodup := h.keys.of_map
  have hnot : (s, entry) ∉ q.filter fun e => decide (e.1 ≠ s) := by
    rw [mem_filter, decide_eq_true_iff]
    exact fun hmem => hmem.2 rfl
  apply (perm_ext_iff_of_nodup hq (nodup_cons.mpr ⟨hnot, hq.filter _⟩)).mpr
  rintro ⟨s', entry'⟩
  rw [mem_cons, mem_filter, decide_eq_true_iff, Prod.mk.injEq]
  by_cases hs : s' = s
  · subst hs
    constructor
    · intro hmem'
      have := h.get.mpr hmem
      rw [h.get.mpr hmem', Option.some.injEq] at this
      exact .inl ⟨rfl, this⟩
    · rintro (⟨-, rfl⟩ | ⟨-, hne⟩)
      · exact hmem
      · exact absurd rfl hne
  · constructor
    · exact fun hmem' => .inr ⟨hmem', hs⟩
    · rintro (⟨rfl, -⟩ | ⟨hmem', -⟩)
      · exact absurd rfl hs
      · exact hmem'

theorem heldBytes_split (h : cache.Queue q) (hmem : (s, entry) ∈ q) :
    heldBytes q = entry.image.data.length + heldBytes (q.filter fun e => decide (e.1 ≠ s)) := by
  rw [heldBytes, ((h.split hmem).map _).sum_eq, map_cons, sum_cons, heldBytes]

/-- What is not there need not be left out. -/
theorem filter_of_get_eq_none (h : cache.Queue q) (hget : cache.entries.get s = none) :
    (q.filter fun e => decide (e.1 ≠ s)) = q := by
  apply filter_eq_self.mpr
  rintro ⟨s', entry⟩ hmem
  rw [decide_eq_true_iff]
  rintro rfl
  rw [h.get.mpr hmem] at hget
  cases hget

/-- A removed session leaves the queue, and the rest stays in order. -/
theorem remove (h : cache.Queue q) (s : SessionId) :
    (cache.remove s).2.Queue (q.filter fun e => decide (e.1 ≠ s)) := by
  rw [VisualBaselineCache.remove]
  cases hget : cache.entries.get s with
  | none =>
    rw [h.filter_of_get_eq_none hget]
    exact h
  | some entry =>
    refine ⟨h.perm.filter _, h.order.filter _, fun e he => h.past e (mem_filter.mp he).1,
      fun e he => h.bytes e (mem_filter.mp he).1,
      fun e he => h.pos e (mem_filter.mp he).1, ?_⟩
    have hsum := h.heldBytes_split (h.get.mp hget)
    have hbytes := h.bytes _ (h.get.mp hget)
    have hused := h.used
    dsimp only at hbytes ⊢
    omega

/-- The oldest of the queue is the one that goes. -/
theorem leastRecentlyUsed (h : cache.Queue ((s, entry) :: q)) :
    cache.leastRecentlyUsed = some s := by
  rw [VisualBaselineCache.leastRecentlyUsed]
  cases hmin : cache.entries.entries.argmin fun e => e.2.touchedAt with
  | none =>
    rw [argmin_eq_none] at hmin
    have := h.perm.length_eq
    rw [hmin] at this
    cases this
  | some e =>
    have he : e ∈ (s, entry) :: q := h.perm.mem_iff.mpr (argmin_mem hmin)
    rcases mem_cons.mp he with rfl | he
    · rfl
    · have hle := le_of_mem_argmin (h.perm.mem_iff.mp mem_cons_self) hmin
      have hlt := (pairwise_cons.mp h.order).1 e he
      omega

open VisualBaselineCache

/-- Eviction takes the oldest off the queue while it is over. -/
theorem evictLoop {n : Nat} (h : cache.Queue q) (hn : q.length ≤ n) :
    (cache.evictLoop n).Queue (trim (overLimits cache.byteBudget cache.maxEntries) q) := by
  induction n generalizing cache q with
  | zero =>
    obtain rfl := length_eq_zero_iff.mp (Nat.le_zero.mp hn)
    exact h
  | succ n ih =>
    rw [evictLoop, h.overBudget_eq]
    by_cases hover : overLimits cache.byteBudget cache.maxEntries q = true
    · rw [if_pos hover]
      cases q with
      | nil =>
        rw [overLimits_eq_false.mpr ⟨Nat.zero_le _, Nat.zero_le _⟩] at hover
        cases hover
      | cons e rest =>
        obtain ⟨s, entry⟩ := e
        rw [h.leastRecentlyUsed, trim, if_pos hover]
        have hkeys := h.keys
        rw [map_cons, nodup_cons] at hkeys
        have hrest : (((s, entry) :: rest).filter fun e => decide (e.1 ≠ s)) = rest := by
          rw [filter_cons_of_neg (by simp)]
          apply filter_eq_self.mpr
          intro e he
          rw [decide_eq_true_iff]
          rintro rfl
          exact hkeys.1 (mem_map.mpr ⟨e, he, rfl⟩)
        have hremoved := h.remove s
        rw [hrest] at hremoved
        have hlen : rest.length ≤ n := by
          rw [length_cons] at hn
          omega
        have hloop := ih hremoved hlen
        rw [remove_byteBudget, remove_maxEntries] at hloop
        exact hloop
    · rw [if_neg hover, trim_of_not_over (Bool.eq_false_iff.mpr hover)]
      exact h

/-- A new use goes to the end of the queue. -/
theorem push (h : cache.Queue q) (entry : VisualBaselineEntry) (hs : s ∉ q.map Prod.fst)
    (hclock : cache.clock < u64Max) (htouched : entry.touchedAt = cache.nextTick)
    (hbytes : entry.bytes = entry.image.data.length) (hpos : 0 < entry.bytes) {usedBytes : Nat}
    (hused : usedBytes = cache.usedBytes + entry.bytes) :
    Queue { cache with
      entries := cache.entries.insert s entry, usedBytes, clock := cache.nextTick }
      (q ++ [(s, entry)]) := by
  have htick : cache.nextTick = cache.clock + 1 := by
    rw [nextTick]
    omega
  have herase : cache.entries.erase s = cache.entries := by
    apply erase_of_get_eq_none
    rw [Option.eq_none_iff_forall_ne_some]
    intro entry' hget
    exact hs (mem_map_of_mem (f := Prod.fst) (h.get.mp hget))
  refine ⟨?_, ?_, ?_, ?_, ?_, ?_⟩
  · refine perm_append_singleton _ _ |>.trans ?_
    refine List.Perm.trans ?_ OrderedMap.perm_insert.symm
    rw [herase]
    exact h.perm.cons _
  · rw [pairwise_append]
    refine ⟨h.order, pairwise_singleton _ _, ?_⟩
    intro e he e' he'
    obtain rfl := mem_singleton.mp he'
    have := h.past e he
    dsimp only
    omega
  · intro e he
    rcases mem_append.mp he with he | he
    · have := h.past e he
      dsimp only
      omega
    · obtain rfl := mem_singleton.mp he
      exact htouched.le
  · intro e he
    rcases mem_append.mp he with he | he
    · exact h.bytes e he
    · obtain rfl := mem_singleton.mp he
      exact hbytes
  · intro e he
    rcases mem_append.mp he with he | he
    · exact h.pos e he
    · obtain rfl := mem_singleton.mp he
      exact hpos
  · have := h.used
    simp only [heldBytes, map_append, sum_append, map_cons, map_nil,
      sum_singleton] at this ⊢
    omega

/-- Without a session none of its entries is left. -/
theorem not_mem_others : s ∉ (q.filter fun e => decide (e.1 ≠ s)).map Prod.fst := by
  rw [mem_map]
  rintro ⟨e, he, rfl⟩
  rw [mem_filter, decide_eq_true_iff] at he
  exact he.2 rfl

/-- A hit moves the session to the end. -/
theorem touch (h : cache.Queue q) (hclock : cache.clock < u64Max)
    (hget : cache.entries.get s = some entry) :
    Queue { cache with
      entries := cache.entries.insert s { entry with touchedAt := cache.nextTick }
      clock := cache.nextTick }
      (q.filter (fun e => decide (e.1 ≠ s)) ++ [(s, { entry with touchedAt := cache.nextTick })])
    := by
  have hmem := h.get.mp hget
  have hbytes := h.bytes _ hmem
  have hremoved := h.remove s
  have hpush := hremoved.push { entry with touchedAt := cache.nextTick } not_mem_others
    (by rw [remove_clock]; exact hclock) (remove_nextTick cache s).symm hbytes (h.pos _ hmem) rfl
  have hold := h.used
  have hnew := hremoved.used
  have hsum := h.heldBytes_split hmem
  refine ⟨?_, hpush.order, ?_, hpush.bytes, hpush.pos, ?_⟩
  · refine hpush.perm.trans (OrderedMap.perm_insert.trans ?_)
    refine List.Perm.trans ?_ OrderedMap.perm_insert.symm
    have herase : (cache.remove s).2.entries = cache.entries.erase s := by
      rw [VisualBaselineCache.remove, hget]
    rw [herase, erase_of_get_eq_none]
    rw [Option.eq_none_iff_forall_ne_some]
    exact fun entry' hget' => (OrderedMap.get_erase_eq_some.mp hget').2 rfl
  · have hpast := hpush.past
    rw [remove_nextTick] at hpast
    exact hpast
  · rw [← hpush.used]
    dsimp only at hbytes ⊢
    omega

end Queue

/-- Neither the clock nor the byte total saturates in the call; a miss reads neither. -/
def Unsaturated (cache : VisualBaselineCache) : BaselineCall → Prop
  | .getCompatible _ _ (some _) => cache.clock < u64Max
  | .getCompatible _ _ none => True
  | .insert s _ image _ => cache.clock < u64Max ∧
      (cache.remove s).2.usedBytes + image.data.length ≤ usizeMax
  | .remove .. => True

/-- What an insertion puts in. -/
def newEntry (cache : VisualBaselineCache) (context : VisualBaselineContext) (image : RgbaImage) :
    VisualBaselineEntry :=
  { context, image, bytes := image.data.length, touchedAt := cache.nextTick }

/-- The queue once a session has gone to its end, before eviction. -/
def pushed (q : List (SessionId × VisualBaselineEntry)) (s : SessionId)
    (entry : VisualBaselineEntry) : List (SessionId × VisualBaselineEntry) :=
  q.filter (fun e => decide (e.1 ≠ s)) ++ [(s, entry)]

section
variable {cache : VisualBaselineCache} {q : List (SessionId × VisualBaselineEntry)}
  {s : SessionId} {context : VisualBaselineContext} {image : RgbaImage}
  {answer : Except VisualError Bool}

/-- An image that fits alone is within the limits alone. -/
theorem not_over_new (s : SessionId) (context : VisualBaselineContext)
    (hmax : 0 < cache.maxEntries) (hfits : image.data.length ≤ cache.byteBudget) :
    overLimits cache.byteBudget cache.maxEntries [(s, cache.newEntry context image)] = false := by
  rw [overLimits_eq_false]
  simp only [heldBytes, newEntry, map_cons, map_nil, sum_singleton,
    length_singleton]
  exact ⟨hfits, hmax⟩

/-- **What `insert` does.**  It refuses and changes nothing; it only drops what the session
had, where the image is larger than the budget; or the session goes to the end of the
queue and the oldest go. -/
theorem insert_cases (h : cache.Queue q) (hmax : 0 < cache.maxEntries)
    (hu : cache.Unsaturated (.insert s context image answer)) :
    (∃ e, cache.insert s context image = (.error e, cache)) ∨
    (image.Valid ∧ cache.byteBudget < image.data.length ∧
      cache.insert s context image = (.ok false, (cache.remove s).2)) ∨
    image.Valid ∧ image.data.length ≤ cache.byteBudget ∧
      (cache.insert s context image).1 = .ok true ∧
      (cache.insert s context image).2.Queue
        (trim (overLimits cache.byteBudget cache.maxEntries)
          (pushed q s (cache.newEntry context image))) := by
  rw [insert]
  cases hvalidate : image.validate with
  | error e => exact .inl ⟨e, rfl⟩
  | ok u =>
    have hvalid := RgbaImage.validate_eq_ok.mp hvalidate
    dsimp only
    by_cases hdims : context.pixelWidth ≠ image.width ∨ context.pixelHeight ≠ image.height
    · rw [if_pos hdims]
      exact .inl ⟨_, rfl⟩
    rw [if_neg hdims, remove_byteBudget, remove_maxEntries, remove_nextTick]
    by_cases hlarge : cache.byteBudget < image.data.length
    · rw [if_pos hlarge]
      exact .inr (.inl ⟨hvalid, hlarge, rfl⟩)
    rw [if_neg hlarge]
    have hfits := not_lt.mp hlarge
    refine .inr (.inr ⟨hvalid, hfits, ?_⟩)
    have hused : min ((cache.remove s).2.usedBytes + image.data.length) usizeMax =
        (cache.remove s).2.usedBytes + image.data.length := min_eq_left hu.2
    have hpush := (h.remove s).push (cache.newEntry context image) Queue.not_mem_others
      (by rw [remove_clock]; exact hu.1) (remove_nextTick cache s).symm rfl hvalid.pos hused
    have hevict := hpush.evictLoop (le_of_eq hpush.size.symm)
    rw [remove_byteBudget, remove_maxEntries, remove_nextTick] at hevict
    have hnew := mem_trim_concat (l := q.filter fun e => decide (e.1 ≠ s))
      (not_over_new s context hmax hfits)
    refine ⟨?_, hevict⟩
    have hget := hevict.get.mpr hnew
    rw [evictToBudget]
    exact congrArg Except.ok (Option.isSome_iff_exists.mpr ⟨_, hget⟩)

/-! ## The projection -/

/-- The projection's loop is the eviction of a queue with a new entry at its end. -/
theorem projectLoop_eq {byteBudget maxEntries : Nat} {new : SessionId × VisualBaselineEntry}
    (hnew : overLimits byteBudget maxEntries [new] = false)
    (hbytes : ∀ e ∈ q, e.2.bytes = e.2.image.data.length) :
    projectLoop byteBudget maxEntries (heldBytes (q ++ [new])) (q ++ [new]).length
        (q.map (·.2.bytes)) =
      .ok (heldBytes (trim (overLimits byteBudget maxEntries) (q ++ [new])),
        (trim (overLimits byteBudget maxEntries) (q ++ [new])).length) := by
  induction q with
  | nil => rw [nil_append, trim_of_not_over hnew, map_nil, projectLoop]
  | cons e rest ih =>
    rw [map_cons, projectLoop, cons_append, trim]
    by_cases hover : overLimits byteBudget maxEntries (e :: (rest ++ [new])) = true
    · have hsum : heldBytes (e :: (rest ++ [new])) =
          e.2.image.data.length + heldBytes (rest ++ [new]) := by
        rw [heldBytes, map_cons, sum_cons, heldBytes]
      have hhead := hbytes e mem_cons_self
      have hgoes : ¬ (heldBytes (e :: (rest ++ [new])) ≤ byteBudget ∧
          (e :: (rest ++ [new])).length ≤ maxEntries) := by
        intro hwithin
        rw [overLimits_eq_false.mpr hwithin] at hover
        cases hover
      have hsub : checkedSub (heldBytes (e :: (rest ++ [new]))) e.2.bytes =
          some (heldBytes (rest ++ [new])) := by
        rw [checkedSub, if_pos (by omega), hsum, hhead, Nat.add_sub_cancel_left]
      have hsub1 : checkedSub (e :: (rest ++ [new])).length 1 =
          some (rest ++ [new]).length := by
        rw [checkedSub, if_pos (by rw [length_cons]; omega), length_cons]
        rfl
      rw [if_neg hgoes, if_pos hover, hsub, hsub1]
      exact ih fun e he => hbytes e (mem_cons_of_mem _ he)
    · rw [if_pos (overLimits_eq_false.mp (Bool.eq_false_iff.mpr hover)), if_neg hover]

/-- The candidates are the queue without the session. -/
theorem Queue.candidates (h : cache.Queue q) :
    cache.evictionCandidates s = q.filter fun e => decide (e.1 ≠ s) := by
  rw [evictionCandidates]
  apply @List.Perm.eq_of_pairwise _ fun a b : SessionId × VisualBaselineEntry =>
      toLex (a.2.touchedAt, a.1) ≤ toLex (b.2.touchedAt, b.1)
  · intro a b ha hb hab hba
    have hkey : a.1 = b.1 := (Prod.mk.inj (toLex.injective (le_antisymm hab hba))).2
    have hmem : a ∈ cache.entries.entries :=
      (mem_filter.mp ((mem_insertionSort _).mp ha)).1
    have hmem' : b ∈ q := (mem_filter.mp hb).1
    have hget : cache.entries.get a.1 = some a.2 := OrderedMap.mem_entries.mp hmem
    have hget' : cache.entries.get b.1 = some b.2 := h.get.mpr hmem'
    rw [hkey, hget', Option.some.injEq] at hget
    exact Prod.ext hkey hget.symm
  · exact pairwise_insertionSort _ _
  · refine (h.order.filter _).imp ?_
    intro a b hlt
    rw [Prod.Lex.toLex_le_toLex]
    exact .inl hlt
  · exact (perm_insertionSort _ _).trans (h.perm.symm.filter _)

/-- What the projection starts from: the queue without the session, and the new entry. -/
theorem Queue.counts (h : cache.Queue q) :
    checkedSub cache.usedBytes ((cache.entries.get s).elim 0 (·.bytes)) =
        some (heldBytes (q.filter fun e => decide (e.1 ≠ s))) ∧
      checkedSub cache.entries.size (cache.entries.get s).isSome.toNat =
        some (q.filter fun e => decide (e.1 ≠ s)).length := by
  rw [h.used, h.size]
  cases hget : cache.entries.get s with
  | none =>
    rw [h.filter_of_get_eq_none hget]
    exact ⟨if_pos (Nat.zero_le _), if_pos (Nat.zero_le _)⟩
  | some entry =>
    have hmem := h.get.mp hget
    have hsum := h.heldBytes_split hmem
    have hlength := (h.split hmem).length_eq
    have hbytes := h.bytes _ hmem
    rw [length_cons] at hlength
    dsimp only [Option.elim, Option.isSome, Bool.toNat, cond] at hbytes ⊢
    constructor
    · rw [checkedSub, if_pos (by omega), hbytes]
      exact congrArg some (by omega)
    · rw [checkedSub, if_pos (by omega)]
      exact congrArg some (by omega)

theorem length_le_heldBytes (hbytes : ∀ e ∈ q, e.2.bytes = e.2.image.data.length)
    (hpos : ∀ e ∈ q, 0 < e.2.bytes) : q.length ≤ heldBytes q := by
  induction q with
  | nil => exact Nat.zero_le _
  | cons e rest ih =>
    have hrest := ih (fun e he => hbytes e (mem_cons_of_mem _ he)) fun e he =>
      hpos e (mem_cons_of_mem _ he)
    have hhead := hbytes e mem_cons_self
    have hone := hpos e mem_cons_self
    have hsum : heldBytes (e :: rest) = e.2.image.data.length + heldBytes rest := by
      rw [heldBytes, map_cons, sum_cons, heldBytes]
    rw [length_cons]
    omega

theorem heldBytes_pushed {entry : VisualBaselineEntry} :
    heldBytes (pushed q s entry) =
      heldBytes (q.filter fun e => decide (e.1 ≠ s)) + entry.image.data.length := by
  rw [heldBytes, pushed, map_append, sum_append, heldBytes, map_cons,
    map_nil, sum_singleton]

/-- **The projection is the eviction.**  Of an image that fits it says what the queue holds
once the image has been put in and the oldest have gone. -/
theorem Queue.projected (h : cache.Queue q) (context : VisualBaselineContext) (hmax : 0 < cache.maxEntries)
    (hpos : 0 < image.data.length) (hfits : image.data.length ≤ cache.byteBudget)
    (husize : (cache.remove s).2.usedBytes + image.data.length ≤ usizeMax) :
    cache.projectedUsedBytesAfterInsert s image.data.length =
      .ok (some (heldBytes (trim (overLimits cache.byteBudget cache.maxEntries)
        (pushed q s (cache.newEntry context image))))) := by
  have hremoved := h.remove s
  have hlength := length_le_heldBytes hremoved.bytes hremoved.pos
  have hused := hremoved.used
  have hnew := not_over_new s context hmax hfits
  have hloop := projectLoop_eq hnew hremoved.bytes
  have hcounts := h.counts (s := s)
  have hwithin := overLimits_eq_false.mp (not_over_trim (l := pushed q s
    (cache.newEntry context image)) (p := overLimits cache.byteBudget cache.maxEntries)
    (overLimits_eq_false.mpr ⟨Nat.zero_le _, Nat.zero_le _⟩))
  have hadd : checkedAdd (heldBytes (q.filter fun e => decide (e.1 ≠ s))) image.data.length =
      some (heldBytes (pushed q s (cache.newEntry context image))) := by
    rw [heldBytes_pushed, checkedAdd, if_pos (by omega)]
    rfl
  have hadd1 : checkedAdd (q.filter fun e => decide (e.1 ≠ s)).length 1 =
      some (pushed q s (cache.newEntry context image)).length := by
    rw [pushed, length_append, length_singleton, checkedAdd, if_pos (by omega)]
  have hnotOver : ¬ (cache.byteBudget < heldBytes (trim (overLimits cache.byteBudget
      cache.maxEntries) (pushed q s (cache.newEntry context image))) ∨
      cache.maxEntries < (trim (overLimits cache.byteBudget cache.maxEntries)
        (pushed q s (cache.newEntry context image))).length) := by
    omega
  have hzero : ¬ image.data.length = 0 := by omega
  simp only [pushed] at hadd hadd1 hnotOver ⊢
  simp only [projectedUsedBytesAfterInsert, rejectIf, if_neg hzero, if_neg (not_lt.mpr hfits),
    hcounts.1, hcounts.2, okOr, h.candidates, hadd, hadd1, hloop, if_neg hnotOver, pure, bind,
    Except.pure, Except.bind]

end
/-! ## Over a run -/

open BaselineCall

/-- The cache holds a queue within its budgets, in the order the sessions were last used. -/
structure Kept (tr : List BaselineCall) (cache : VisualBaselineCache)
    (q : List (SessionId × VisualBaselineEntry)) : Prop where
  queue : cache.Queue q
  budget : 0 < cache.maxEntries
  within : overLimits cache.byteBudget cache.maxEntries q = false
  recent : q.Pairwise fun a b =>
    lastUse uses tr a.1 < lastUse uses tr b.1

section
variable {cache cache' : VisualBaselineCache} {tr : List BaselineCall} {call : BaselineCall}
  {q : List (SessionId × VisualBaselineEntry)} {s : SessionId} {entry : VisualBaselineEntry}

/-- A call that uses nothing leaves the order as it is. -/
theorem recent_unused (hnone : call.uses = none)
    (h : q.Pairwise fun a b =>
      lastUse uses tr a.1 < lastUse uses tr b.1) :
    q.Pairwise fun a b => lastUse uses (tr ++ [call]) a.1 <
      lastUse uses (tr ++ [call]) b.1 := by
  refine h.imp fun {a b} hlt => ?_
  rw [lastUse_snoc_of_ne (by rw [hnone]; exact Option.some_ne_none _ |>.symm),
    lastUse_snoc_of_ne (by rw [hnone]; exact Option.some_ne_none _ |>.symm)]
  exact hlt

/-- The session a call uses goes to the end of the order. -/
theorem recent_pushed (hsome : call.uses = some s)
    (h : q.Pairwise fun a b =>
      lastUse uses tr a.1 < lastUse uses tr b.1) :
    (pushed q s entry).Pairwise fun a b => lastUse uses (tr ++ [call]) a.1 <
      lastUse uses (tr ++ [call]) b.1 := by
  have hother : ∀ e ∈ q.filter fun e => decide (e.1 ≠ s),
      lastUse uses (tr ++ [call]) e.1 = lastUse uses tr e.1 := by
    intro e he
    rw [mem_filter, decide_eq_true_iff] at he
    apply lastUse_snoc_of_ne
    rw [hsome, ne_eq, Option.some.injEq]
    exact he.2.symm
  rw [pushed, pairwise_append]
  refine ⟨?_, pairwise_singleton _ _, ?_⟩
  · refine (h.filter _).imp_of_mem fun {a b} ha hb hlt => ?_
    rw [hother a ha, hother b hb]
    exact hlt
  · intro e he e' he'
    obtain rfl := mem_singleton.mp he'
    rw [hother e he, lastUse_snoc_self hsome]
    have hle : lastUse uses tr e.1 ≤ tr.length := lastUse_le
    omega

/-- A smaller queue is within the budgets where a larger one was. -/
theorem not_over_filter {byteBudget maxEntries : Nat}
    (h : overLimits byteBudget maxEntries q = false) :
    overLimits byteBudget maxEntries (q.filter fun e => decide (e.1 ≠ s)) = false := by
  rw [overLimits_eq_false] at h ⊢
  have hsub : (q.filter fun e => decide (e.1 ≠ s)).Sublist q := filter_sublist
  have hbytes : heldBytes (q.filter fun e => decide (e.1 ≠ s)) ≤ heldBytes q :=
    (hsub.map _).sum_le_sum fun n _ => Nat.zero_le n
  have hlength := hsub.length_le
  omega

theorem Kept.remove (h : Kept tr cache q) (hnone : call.uses = none) (s : SessionId) :
    Kept (tr ++ [call]) (cache.remove s).2 (q.filter fun e => decide (e.1 ≠ s)) where
  queue := h.queue.remove s
  budget := by rw [remove_maxEntries]; exact h.budget
  within := by rw [remove_byteBudget, remove_maxEntries]; exact not_over_filter h.within
  recent := recent_unused hnone (h.recent.filter _)

theorem Kept.unused (h : Kept tr cache q) (hnone : call.uses = none) :
    Kept (tr ++ [call]) cache q :=
  ⟨h.queue, h.budget, h.within, recent_unused hnone h.recent⟩

/-- Every call that saturates nothing keeps the order of use. -/
theorem Kept.step (h : Kept tr cache q) (hu : cache.Unsaturated call)
    (hs : BaselineStep cache call cache') : ∃ q', Kept (tr ++ [call]) cache' q' := by
  cases hs with
  | getCompatible s context =>
    rw [getCompatible]
    cases hget : cache.entries.get s with
    | none => exact ⟨_, h.remove rfl s⟩
    | some entry =>
      dsimp only
      by_cases hmatch : entry.context.eq context = true
      · rw [getCompatible, hget] at hu
        simp only [if_pos hmatch, Unsaturated] at hu
        rw [if_pos hmatch]
        refine ⟨_, h.queue.touch hu hget, h.budget, ?_, recent_pushed rfl h.recent⟩
        have hwithin := h.within
        have hmem := h.queue.get.mp hget
        have hsum := h.queue.heldBytes_split hmem
        have hlength := (h.queue.split hmem).length_eq
        rw [overLimits_eq_false] at hwithin ⊢
        rw [← pushed, heldBytes_pushed, pushed, length_append, length_singleton]
        rw [length_cons] at hlength
        dsimp only
        omega
      · rw [if_neg hmatch]
        exact ⟨_, h.remove rfl s⟩
  | insert s context image =>
    obtain ⟨e, hrefused⟩ | ⟨-, -, hlarge⟩ | ⟨-, -, hok, hqueue⟩ :=
      insert_cases h.queue h.budget hu
    · rw [hrefused]
      exact ⟨q, h.unused rfl⟩
    · rw [hlarge]
      exact ⟨_, h.remove rfl s⟩
    · obtain ⟨hbudget, hentries⟩ := step_budgets (@BaselineStep.insert cache s context image)
      refine ⟨_, hqueue, by rw [hentries]; exact h.budget, ?_, ?_⟩
      · rw [hbudget, hentries]
        exact not_over_trim (overLimits_eq_false.mpr ⟨Nat.zero_le _, Nat.zero_le _⟩)
      · refine (recent_pushed ?_ h.recent).sublist trim_suffix.sublist
        rw [hok, uses]
  | remove s => exact ⟨_, h.remove rfl s⟩

/-- A new cache holds nothing. -/
theorem kept_new {byteBudget maxEntries : Nat} (h : new byteBudget maxEntries = .ok cache) :
    Kept [] cache [] ∧ cache.byteBudget = byteBudget ∧ cache.maxEntries = maxEntries ∧
      cache.clock = 0 := by
  rw [new] at h
  split_ifs at h with hzero
  rw [not_or] at hzero
  cases h
  refine ⟨⟨⟨List.Perm.nil, List.Pairwise.nil, ?_, ?_, ?_, rfl⟩, Nat.pos_of_ne_zero hzero.2,
    overLimits_eq_false.mpr ⟨Nat.zero_le _, Nat.zero_le _⟩, List.Pairwise.nil⟩, rfl, rfl, rfl⟩
  all_goals
    intro e he
    cases he

end

/-! ## The accounting -/

/-- The totals are those of the stored images, and within the budgets. -/
structure Accounts (cache : VisualBaselineCache) (byteBudget maxEntries : Nat) : Prop where
  used : cache.usedBytes = (cache.entries.values.map (·.image.data.length)).sum
  bytes : cache.usedBytes ≤ byteBudget
  count : cache.entries.size ≤ maxEntries

/-- What one insertion after the calls `tr` keeps and evicts, and what was projected of it. -/
structure InsertAccounts (cache : VisualBaselineCache) (tr : List BaselineCall) (s : SessionId)
    (context : VisualBaselineContext) (image : RgbaImage) : Prop where
  retained : (cache.insert s context image).1 = .ok true →
    ∃ entry, (cache.insert s context image).2.entries.get s = some entry ∧ entry.image = image
  evicted : ∀ k k', k ≠ s → k' ≠ s → (cache.entries.get k).isSome →
    (cache.insert s context image).2.entries.get k = none →
    ((cache.insert s context image).2.entries.get k').isSome →
    lastUse uses tr k < lastUse uses tr k'
  projected : ∀ stored, (cache.insert s context image).1 = .ok stored →
    cache.projectedUsedBytesAfterInsert s image.data.length =
      .ok (if stored then some (cache.insert s context image).2.usedBytes else none)

theorem Kept.accounts {tr : List BaselineCall} {cache : VisualBaselineCache} (h : Kept tr cache q) :
    cache.Accounts cache.byteBudget cache.maxEntries := by
  have hwithin := overLimits_eq_false.mp h.within
  refine ⟨?_, h.queue.used ▸ hwithin.1, h.queue.size ▸ hwithin.2⟩
  rw [h.queue.used, OrderedMap.values, map_map]
  exact (h.queue.perm.map _).sum_eq

theorem Kept.insertAccounts {tr : List BaselineCall} {cache : VisualBaselineCache}
    (h : Kept tr cache q) {s : SessionId} {context : VisualBaselineContext} {image : RgbaImage}
    {answer : Except VisualError Bool} (hu : cache.Unsaturated (.insert s context image answer)) :
    cache.InsertAccounts tr s context image := by
  obtain ⟨e, hrefused⟩ | ⟨hvalid, hlarge, hdropped⟩ | ⟨hvalid, hfits, hok, hqueue⟩ :=
    insert_cases h.queue h.budget hu
  · refine ⟨?_, ?_, ?_⟩
    · rw [hrefused]
      intro hok
      cases hok
    · rw [hrefused]
      intro k k' _ _ hheld hgone
      rw [hgone] at hheld
      cases hheld
    · rw [hrefused]
      intro stored hok
      cases hok
  · refine ⟨?_, ?_, ?_⟩
    · rw [hdropped]
      intro hok
      cases hok
    · rw [hdropped]
      intro k k' hk _ hheld hgone
      rw [remove_get cache s hk] at hgone
      rw [hgone] at hheld
      cases hheld
    · rw [hdropped]
      intro stored hok
      cases hok
      have hpos := hvalid.pos
      have hzero : ¬ image.data.length = 0 := by omega
      simp only [projectedUsedBytesAfterInsert, rejectIf, if_neg hzero, if_pos hlarge, pure, bind,
        Except.pure, Except.bind]
      rfl
  · refine ⟨fun _ => ?_, ?_, ?_⟩
    · have hnew := mem_trim_concat (l := q.filter fun e => decide (e.1 ≠ s))
        (not_over_new s context h.budget hfits)
      exact ⟨_, hqueue.get.mpr hnew, rfl⟩
    · intro k k' hk hk' hheld hgone hstays
      obtain ⟨entry, hget⟩ := Option.isSome_iff_exists.mp hheld
      obtain ⟨entry', hget'⟩ := Option.isSome_iff_exists.mp hstays
      have hmem : (k, entry) ∈ pushed q s (cache.newEntry context image) := by
        apply mem_append_left
        rw [mem_filter, decide_eq_true_iff]
        exact ⟨h.queue.get.mp hget, hk⟩
      have hout : (k, entry) ∉ trim (overLimits cache.byteBudget cache.maxEntries)
          (pushed q s (cache.newEntry context image)) := by
        intro hin
        rw [hqueue.get.mpr hin] at hgone
        cases hgone
      have hrecent := @recent_pushed tr (.insert s context image (.ok true)) q s
        (cache.newEntry context image) rfl h.recent
      have holder := trim_older hrecent hmem hout (hqueue.get.mp hget')
      rw [lastUse_snoc_of_ne, lastUse_snoc_of_ne] at holder
      · exact holder
      · exact fun heq => hk' (Option.some.inj heq).symm
      · exact fun heq => hk (Option.some.inj heq).symm
    · intro stored hstored
      rw [hok] at hstored
      cases hstored
      rw [h.queue.projected context h.budget hvalid.pos hfits hu.2, hqueue.used]
      rfl

end VisualBaselineCache

/-- **The baseline cache keeps its accounts.**  After any calls that saturated neither the
clock nor the byte total, the used bytes are those of the stored images and both budgets
hold; and an insertion that saturates neither keeps its image if it succeeds, evicts only
sessions whose last use is older than that of every session that stays, and leaves the
used bytes that were projected, a projection of none being an image that is not stored. -/
theorem baseline_accounting {byteBudget maxEntries : Nat} {tr : List BaselineCall}
    {start cache : VisualBaselineCache}
    (hnew : VisualBaselineCache.new byteBudget maxEntries = .ok start)
    (hrun : Run BaselineStep start tr cache)
    (hu : Along BaselineStep VisualBaselineCache.Unsaturated start tr) :
    cache.Accounts byteBudget maxEntries ∧
    ∀ s context image,
      cache.Unsaturated (.insert s context image (cache.insert s context image).1) →
      cache.InsertAccounts tr s context image := by
  have hkept : (∃ q, VisualBaselineCache.Kept tr cache q) ∧
      cache.byteBudget = byteBudget ∧ cache.maxEntries = maxEntries := by
    refine hrun.forward_induction (P := fun tr cache =>
      Along BaselineStep VisualBaselineCache.Unsaturated _ tr →
        (∃ q, VisualBaselineCache.Kept tr cache q) ∧
          cache.byteBudget = byteBudget ∧ cache.maxEntries = maxEntries) ?_ ?_ hu
    · obtain ⟨hkept, hbudget, hentries, -⟩ := VisualBaselineCache.kept_new hnew
      exact fun _ => ⟨⟨[], hkept⟩, hbudget, hentries⟩
    · intro tr cache call cache' hrun ih hs hu
      obtain ⟨⟨q, hq⟩, hbudget, hentries⟩ := ih hu.left
      obtain ⟨hbudget', hentries'⟩ := VisualBaselineCache.step_budgets hs
      exact ⟨hq.step (hu.last hrun) hs, hbudget'.trans hbudget, hentries'.trans hentries⟩
  obtain ⟨⟨q, hq⟩, rfl, rfl⟩ := hkept
  exact ⟨hq.accounts, fun s context image hu => hq.insertAccounts hu⟩

/-- Two images in a cache of eight bytes and two entries, and a third that evicts one. -/
theorem baseline_accounting_run : let context : VisualBaselineContext :=
      { route := "http://127.0.0.1:5173/", cssWidth := 1, cssHeight := 1
        deviceScaleFactor := 0x3FF0000000000000#64, pixelWidth := 1, pixelHeight := 1 }
    let image : RgbaImage := ⟨1, 1, [7, 7, 7, 255]⟩
    ∃ start cache tr, VisualBaselineCache.new 8 2 = .ok start ∧
      Run BaselineStep start tr cache ∧ cache.entries.size = 2 ∧ cache.usedBytes = 8 ∧
      cache.Accounts 8 2 ∧ cache.InsertAccounts tr 12 context image := by
  intro context image
  let start : VisualBaselineCache :=
    { entries := .empty, byteBudget := 8, maxEntries := 2, usedBytes := 0, clock := 0 }
  let next := (start.insert 10 context image).2
  have hfirst := @BaselineStep.insert start 10 context image
  have hsecond := @BaselineStep.insert next 11 context image
  have hrun := Run.cons hfirst (Run.cons hsecond (Run.nil _))
  have hu : Along BaselineStep VisualBaselineCache.Unsaturated start
      [.insert 10 context image (start.insert 10 context image).1,
        .insert 11 context image (next.insert 11 context image).1] := by
    refine Along.cons_unique BaselineStep.unique ?_ hfirst
      (Along.cons_unique BaselineStep.unique ?_ hsecond Along.nil)
    · exact ⟨by decide +kernel, by decide +kernel⟩
    · exact ⟨by decide +kernel, by decide +kernel⟩
  have hnew : VisualBaselineCache.new 8 2 = .ok start := rfl
  have hacc := baseline_accounting hnew hrun hu
  exact ⟨start, _, _, hnew, hrun, by decide +kernel, by decide +kernel, hacc.1,
    hacc.2 12 context image ⟨by decide +kernel, by decide +kernel⟩⟩

/-! ## Saturated counters -/

namespace VisualBaselineCache

section
variable {cache : VisualBaselineCache}

/-- A context of one CSS pixel by one, on an image of the given size. -/
def sampleContext (width height : Nat) : VisualBaselineContext :=
  { route := "http://127.0.0.1:5173/", cssWidth := 1, cssHeight := 1
    deviceScaleFactor := 0x3FF0000000000000#64, pixelWidth := width, pixelHeight := height }

def samplePixel : RgbaImage := ⟨1, 1, [7, 7, 7, 255]⟩

/-- One entry of one pixel, under a budget of eight bytes and one entry. -/
def holdingOne (clock : Nat) : VisualBaselineCache :=
  { entries := OrderedMap.empty.insert 1
      { context := sampleContext 1 1, image := samplePixel, bytes := 4, touchedAt := clock }
    byteBudget := 8
    maxEntries := 1
    usedBytes := 4
    clock }

theorem holdingOne_touch (clock : Nat) :
    BaselineStep (holdingOne clock) (.getCompatible 1 (sampleContext 1 1) (some samplePixel))
      (holdingOne (min (clock + 1) u64Max)) := by
  have hget : (holdingOne clock).getCompatible 1 (sampleContext 1 1) =
      (some samplePixel, holdingOne (min (clock + 1) u64Max)) := by
    have hentry : (holdingOne clock).entries.get 1 = some
        { context := sampleContext 1 1, image := samplePixel, bytes := 4, touchedAt := clock } := by
      rw [holdingOne, get_insert, if_pos rfl]
    have heq : (sampleContext 1 1).eq (sampleContext 1 1) = true := by decide
    rw [getCompatible, hentry]
    simp only [heq, if_true]
    rfl
  have hstep := @BaselineStep.getCompatible (holdingOne clock) 1 (sampleContext 1 1)
  rw [hget] at hstep
  exact hstep

/-- Hits alone drive the clock up to its bound. -/
theorem holdingOne_run (clock : Nat) (h : clock ≤ u64Max) (n : Nat) :
    ∃ tr, Run BaselineStep (holdingOne clock) tr (holdingOne (min (clock + n) u64Max)) := by
  induction n with
  | zero =>
    rw [Nat.add_zero, min_eq_left h]
    exact ⟨[], Run.nil _⟩
  | succ n ih =>
    obtain ⟨tr, hrun⟩ := ih
    have hnext : min (min (clock + n) u64Max + 1) u64Max = min (clock + (n + 1)) u64Max := by
      omega
    have hstep := holdingOne_touch (min (clock + n) u64Max)
    rw [hnext] at hstep
    exact ⟨_, hrun.snoc hstep⟩

/-- A clock that has stopped stamps two sessions alike, and the one just put in goes. -/
theorem stopped_clock_evicts_newest :
    ∃ start tr cache, new 8 1 = .ok start ∧ Run BaselineStep start tr cache ∧
      ¬ cache.InsertAccounts tr 0 (sampleContext 2 1) ⟨2, 1, [1, 1, 1, 1, 2, 2, 2, 2]⟩ := by
  obtain ⟨tr, hrun⟩ := holdingOne_run 1 (by decide) u64Max
  have hfirst : BaselineStep
      { entries := .empty, byteBudget := 8, maxEntries := 1, usedBytes := 0, clock := 0 }
      (.insert 1 (sampleContext 1 1) samplePixel (.ok true)) (holdingOne 1) :=
    @BaselineStep.insert
      { entries := .empty, byteBudget := 8, maxEntries := 1, usedBytes := 0, clock := 0 }
      1 (sampleContext 1 1) samplePixel
  rw [min_eq_right (by omega)] at hrun
  refine ⟨_, _, holdingOne u64Max, rfl, Run.cons hfirst hrun, fun hacc => ?_⟩
  have hrefused : ((holdingOne u64Max).insert 0 (sampleContext 2 1)
      ⟨2, 1, [1, 1, 1, 1, 2, 2, 2, 2]⟩).1 = .ok false := by
    decide +kernel
  have hprojected := hacc.projected false hrefused
  have hsome : (holdingOne u64Max).projectedUsedBytesAfterInsert 0 8 = .ok (some 8) := by
    decide +kernel
  exact absurd (hsome.symm.trans hprojected) (by simp)

theorem evictLoop_of_not_over (h : cache.overBudget = false) (n : Nat) :
    cache.evictLoop n = cache := by
  cases n with
  | zero => rfl
  | succ n => rw [evictLoop, h, if_neg Bool.false_ne_true]

/-- What an insertion of one pixel into a new session of a roomy cache leaves to evict. -/
theorem insert_samplePixel {s : SessionId} (hget : cache.entries.get s = none)
    (hbudget : 4 ≤ cache.byteBudget) :
    (cache.insert s (sampleContext 1 1) samplePixel).2 = evictToBudget { cache with
      entries := cache.entries.insert s (cache.newEntry (sampleContext 1 1) samplePixel)
      usedBytes := min (cache.usedBytes + 4) usizeMax
      clock := cache.nextTick } := by
  have hvalidate : samplePixel.validate = .ok () := by decide
  have hdims : ¬ ((sampleContext 1 1).pixelWidth ≠ samplePixel.width ∨
      (sampleContext 1 1).pixelHeight ≠ samplePixel.height) := by decide
  have hremove : (cache.remove s).2 = cache := by rw [remove, hget]
  have hfits : ¬ cache.byteBudget < samplePixel.data.length := not_lt.mpr hbudget
  rw [insert, hvalidate]
  simp only [hremove, if_neg hdims, if_neg hfits]
  rfl

/-- The session of the next number is a new one. -/
theorem get_next_session {q : List (SessionId × VisualBaselineEntry)} (h : cache.Queue q) {n : Nat}
    (hn : 4 * n ≤ usizeMax) (hkeys : ∀ e ∈ q, e.1.toNat < n) :
    (BitVec.ofNat 128 n).toNat = n ∧ cache.entries.get (BitVec.ofNat 128 n) = none := by
  have hs : (BitVec.ofNat 128 n).toNat = n := by
    rw [BitVec.toNat_ofNat]
    exact Nat.mod_eq_of_lt (by simp only [usizeMax, u64Max] at hn; omega)
  refine ⟨hs, ?_⟩
  rw [Option.eq_none_iff_forall_ne_some]
  intro entry hget
  have hlt := hkeys _ (h.get.mp hget)
  rw [hs] at hlt
  exact lt_irrefl n hlt

/-- A cache with the largest budgets, filled with one pixel in ever new sessions. -/
theorem filled_run {start : VisualBaselineCache} (hstart : new usizeMax usizeMax = .ok start)
    {n : Nat} (hn : 4 * n ≤ usizeMax) :
    ∃ tr cache q, Run BaselineStep start tr cache ∧ cache.Queue q ∧ heldBytes q = 4 * n ∧
      q.length = n ∧ (∀ e ∈ q, e.1.toNat < n) ∧ cache.clock ≤ n ∧
      cache.byteBudget = usizeMax ∧ cache.maxEntries = usizeMax := by
  induction n with
  | zero =>
    obtain ⟨hkept, hbudget, hentries, hclock⟩ := kept_new hstart
    exact ⟨[], start, [], Run.nil _, hkept.queue, rfl, rfl, fun e he => (by cases he), hclock.le,
      hbudget, hentries⟩
  | succ n ih =>
    obtain ⟨tr, cache, q, hrun, hqueue, hheld, hlength, hkeys, hclock, hbudget, hentries⟩ :=
      ih (by omega)
    obtain ⟨hs, hget⟩ := get_next_session hqueue (by omega) hkeys
    generalize BitVec.ofNat 128 n = s at hs hget
    have hnew : s ∉ q.map Prod.fst := by
      intro hmem
      obtain ⟨⟨_, entry⟩, he, rfl⟩ := mem_map.mp hmem
      rw [hqueue.get.mpr he] at hget
      cases hget
    have hclock64 : cache.clock < u64Max := by
      simp only [usizeMax, u64Max] at hn ⊢
      omega
    have hused : min (cache.usedBytes + 4) usizeMax = cache.usedBytes + 4 := by
      rw [hqueue.used]
      omega
    have hpush := hqueue.push (cache.newEntry (sampleContext 1 1) samplePixel) hnew hclock64 rfl
      rfl (Nat.succ_pos 3) hused
    have hheld' : heldBytes (q ++ [(s, cache.newEntry (sampleContext 1 1) samplePixel)]) =
        4 * (n + 1) := by
      rw [heldBytes, map_append, sum_append, ← heldBytes, hheld]
      rfl
    have hlength' : (q ++ [(s, cache.newEntry (sampleContext 1 1) samplePixel)]).length = n + 1 := by
      rw [length_append, hlength]
      rfl
    have hover : overBudget { cache with
        entries := cache.entries.insert s (cache.newEntry (sampleContext 1 1) samplePixel)
        usedBytes := min (cache.usedBytes + 4) usizeMax
        clock := cache.nextTick } = false := by
      rw [hpush.overBudget_eq, overLimits_eq_false, hheld', hlength']
      dsimp only
      omega
    have hstep := @BaselineStep.insert cache s (sampleContext 1 1) samplePixel
    rw [insert_samplePixel hget (by rw [hbudget]; decide), evictToBudget,
      evictLoop_of_not_over hover] at hstep
    refine ⟨_, _, _, hrun.snoc hstep, hpush, hheld', hlength', ?_, ?_, hbudget, hentries⟩
    · intro e he
      rcases mem_append.mp he with he | he
      · have := hkeys e he
        omega
      · obtain rfl := mem_singleton.mp he
        rw [hs]
        exact Nat.lt_succ_self n
    · exact (min_le_left _ _).trans (Nat.succ_le_succ hclock)

/-- One more pixel than a byte total can count. -/
theorem overfull_run {start : VisualBaselineCache} (hstart : new usizeMax usizeMax = .ok start)
    {m : Nat} (hm : 4 * m + 3 = usizeMax) :
    ∃ tr cache, Run BaselineStep start tr cache ∧ ¬ cache.Accounts usizeMax usizeMax := by
  obtain ⟨tr, cache, q, hrun, hqueue, hheld, hlength, hkeys, -, hbudget, hentries⟩ :=
    filled_run (n := m) hstart (by omega)
  obtain ⟨-, hget⟩ := get_next_session hqueue (by omega) hkeys
  generalize BitVec.ofNat 128 m = s at hget
  have hused : cache.usedBytes = 4 * m := hqueue.used.trans hheld
  have herase := erase_of_get_eq_none hget
  have hsize := (perm_insert (m := cache.entries) (k := s)
    (v := cache.newEntry (sampleContext 1 1) samplePixel)).length_eq
  rw [herase, length_cons, ← OrderedMap.size, ← OrderedMap.size, hqueue.size,
    hlength] at hsize
  have hover : overBudget { cache with
      entries := cache.entries.insert s (cache.newEntry (sampleContext 1 1) samplePixel)
      usedBytes := min (cache.usedBytes + 4) usizeMax
      clock := cache.nextTick } = false := by
    rw [overBudget, hbudget, hentries, hsize, Bool.or_eq_false_iff, decide_eq_false_iff_not,
      decide_eq_false_iff_not]
    dsimp only
    omega
  have hstep := @BaselineStep.insert cache s (sampleContext 1 1) samplePixel
  rw [insert_samplePixel hget (by rw [hbudget]; decide), evictToBudget, evictLoop_of_not_over hover] at hstep
  refine ⟨_, _, hrun.snoc hstep, fun hacc => ?_⟩
  have hsum := hacc.used
  rw [OrderedMap.values, map_map, (OrderedMap.perm_insert.map _).sum_eq, map_cons,
    sum_cons, herase, ← (hqueue.perm.map _).sum_eq] at hsum
  have htotal : (q.map ((fun e : VisualBaselineEntry => e.image.data.length) ∘ Prod.snd)).sum =
      4 * m := hheld
  have hone : ((fun e : VisualBaselineEntry => e.image.data.length) ∘ Prod.snd)
      (s, cache.newEntry (sampleContext 1 1) samplePixel) = 4 := rfl
  rw [htotal, hone] at hsum
  dsimp only at hsum
  omega

end
end VisualBaselineCache

/-- The accounts fail where a counter saturates: with the clock stopped an insertion evicts
its own image and leaves other bytes than were projected, and with the byte total at its
bound the used bytes are fewer than those stored. -/
theorem baseline_accounting_saturated :
    (∃ start tr cache, VisualBaselineCache.new 8 1 = .ok start ∧ Run BaselineStep start tr cache ∧
      ¬ cache.InsertAccounts tr 0 (VisualBaselineCache.sampleContext 2 1)
        ⟨2, 1, [1, 1, 1, 1, 2, 2, 2, 2]⟩) ∧
    ∃ start tr cache, VisualBaselineCache.new usizeMax usizeMax = .ok start ∧
      Run BaselineStep start tr cache ∧ ¬ cache.Accounts usizeMax usizeMax := by
  have hstart : VisualBaselineCache.new usizeMax usizeMax = .ok
      { entries := .empty, byteBudget := usizeMax, maxEntries := usizeMax, usedBytes := 0
        clock := 0 } := by
    rw [VisualBaselineCache.new, if_neg (by decide)]
  have hm : 4 * 4611686018427387903 + 3 = usizeMax := rfl
  obtain ⟨tr, cache, hrun, hacc⟩ := VisualBaselineCache.overfull_run hstart hm
  exact ⟨VisualBaselineCache.stopped_clock_evicts_newest, _, tr, cache, hstart, hrun, hacc⟩

end Localview
