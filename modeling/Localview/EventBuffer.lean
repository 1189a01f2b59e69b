import Localview.OrderedSet
import Localview.Protocol
import Localview.StateRun
import Mathlib.Data.String.Basic

/-! # The buffer of runtime events

`EventBuffer::push` of `runtime-abi/src/lib.rs`: a bounded buffer that makes room where it
can and counts what it gives up.  A type listed in `never_drop_types` is *critical*.

Two of the branches do not look at the type of what they give up: making room for an
ordinary event takes the oldest one whatever it is (`evictsCritical`), and a critical event
that meets a buffer of critical ones is refused and not counted (`refusesCritical`).  A run
keeps its critical events and its count just when no step does either
(`push_faithful_iff`).
-/
namespace Localview.RuntimeAbi
open StateRun List Bool

/-- An event by what a buffer tells apart: its id and its type. -/
structure RuntimeEvent where
  id : Uuid
  eventType : String
  deriving DecidableEq

/-- What a full buffer drops. -/
structure BackpressurePolicy where
  maxBuffered : Nat
  dropOldestObservational : Bool
  neverDropTypes : OrderedSet String

namespace BackpressurePolicy

/-- The room a buffer has. -/
def capacity (policy : BackpressurePolicy) : Nat := max policy.maxBuffered 1

/-- The events that are never to be dropped. -/
def critical (policy : BackpressurePolicy) (event : RuntimeEvent) : Bool :=
  policy.neverDropTypes.contains event.eventType

end BackpressurePolicy

/-- Events, and how many were dropped. -/
structure EventBuffer where
  events : List RuntimeEvent
  dropped : Nat
  deriving DecidableEq

namespace EventBuffer

def empty : EventBuffer := ⟨[], 0⟩

/-- The buffer once the event at an index has made room for a new one. -/
def replaceAt (buffer : EventBuffer) (index : Nat) (event : RuntimeEvent) : EventBuffer :=
  ⟨buffer.events.eraseIdx index ++ [event], buffer.dropped + 1⟩

/-- `push`: the buffer afterwards and whether the event was taken. -/
def push (buffer : EventBuffer) (event : RuntimeEvent) (policy : BackpressurePolicy) :
    EventBuffer × Bool :=
  if buffer.events.length < policy.capacity then
    ({ buffer with events := buffer.events ++ [event] }, true)
  else if policy.critical event then
    match buffer.events.findIdx? fun existing => !policy.critical existing with
    | some index => (buffer.replaceAt index event, true)
    | none => (buffer, false)
  else if policy.dropOldestObservational then
    (buffer.replaceAt 0 event, true)
  else ({ buffer with dropped := buffer.dropped + 1 }, false)

/-! ## Runs and what they are to keep -/

section
variable {policy : BackpressurePolicy} {buffer buffer' : EventBuffer} {event : RuntimeEvent}
  {accepted : Bool} {tr : List (RuntimeEvent × Bool)}

/-- A push, labelled with the event and whether it was taken. -/
def Pushes (policy : BackpressurePolicy) (buffer : EventBuffer) (label : RuntimeEvent × Bool)
    (buffer' : EventBuffer) : Prop :=
  buffer.push label.1 policy = (buffer', label.2)

/-- The events pushed, in order. -/
def pushedEvents (tr : List (RuntimeEvent × Bool)) : List RuntimeEvent := tr.map Prod.fst

/-- The events taken, in order. -/
def acceptedEvents (tr : List (RuntimeEvent × Bool)) : List RuntimeEvent :=
  (tr.filter Prod.snd).map Prod.fst

/-- The promise of the buffer after the pushes `tr`. -/
structure Faithful (policy : BackpressurePolicy) (tr : List (RuntimeEvent × Bool))
    (buffer : EventBuffer) : Prop where
  bounded : buffer.events.length ≤ max 1 policy.maxBuffered
  /-- What is left stands in the order it was pushed in. -/
  ordered : buffer.events.Sublist (pushedEvents tr)
  /-- Every critical event that was taken is there, as often as it was taken. -/
  kept : ((acceptedEvents tr).filter policy.critical).Sublist buffer.events
  /-- `dropped` counts what was pushed and is not there. -/
  counted : buffer.dropped + buffer.events.length = (pushedEvents tr).length

/-- The push makes room by giving up a critical event. -/
def evictsCritical (buffer : EventBuffer) (policy : BackpressurePolicy) (event : RuntimeEvent) :
    Bool :=
  decide (policy.capacity ≤ buffer.events.length) && !policy.critical event &&
    policy.dropOldestObservational && buffer.events.head?.any policy.critical

def refusesCritical (buffer : EventBuffer) (policy : BackpressurePolicy)
    (event : RuntimeEvent) : Bool :=
  decide (policy.capacity ≤ buffer.events.length) && policy.critical event &&
    buffer.events.all policy.critical

/-- The push does neither. -/
def Spares (policy : BackpressurePolicy) (buffer : EventBuffer) (label : RuntimeEvent × Bool) :
    Prop :=
  buffer.evictsCritical policy label.1 = false ∧ buffer.refusesCritical policy label.1 = false

/-! ## One push -/

/-- What a push does: it has room, or gives up one event for the new one, or refuses. -/
theorem push_cases (h : Pushes policy buffer (event, accepted) buffer') :
    (accepted = true ∧ buffer.events.length < policy.capacity ∧
      buffer' = { buffer with events := buffer.events ++ [event] } ∧
      buffer.evictsCritical policy event = false ∧
      buffer.refusesCritical policy event = false) ∨
    (∃ before victim after, accepted = true ∧ buffer.events = before ++ victim :: after ∧
      buffer' = ⟨before ++ after ++ [event], buffer.dropped + 1⟩ ∧
      buffer.evictsCritical policy event = policy.critical victim ∧
      buffer.refusesCritical policy event = false) ∨
    (accepted = false ∧ buffer'.events = buffer.events ∧
      buffer'.dropped = buffer.dropped +
        (if buffer.refusesCritical policy event then 0 else 1) ∧
      buffer.evictsCritical policy event = false) := by
  have hpush : buffer.push event policy = (buffer', accepted) := h
  unfold push at hpush
  by_cases hroom : buffer.events.length < policy.capacity
  · -- there is room
    rw [if_pos hroom] at hpush
    cases hpush
    have hfull : decide (policy.capacity ≤ buffer.events.length) = false := by
      rw [decide_eq_false_iff_not]; omega
    exact .inl ⟨rfl, hroom, rfl, by simp [evictsCritical, hfull],
      by simp [refusesCritical, hfull]⟩
  rw [if_neg hroom] at hpush
  have hfull : decide (policy.capacity ≤ buffer.events.length) = true := by
    rw [decide_eq_true_iff]; omega
  by_cases hcrit : policy.critical event = true
  · -- a critical event takes the place of the first one that is not
    rw [if_pos hcrit] at hpush
    have hevict : buffer.evictsCritical policy event = false := by
      simp [evictsCritical, hcrit]
    cases hfind : buffer.events.findIdx? fun existing => !policy.critical existing with
    | none =>
      rw [hfind] at hpush
      cases hpush
      have hall : buffer.events.all policy.critical = true := by
        rw [all_eq_true]
        intro existing hmem
        simpa using findIdx?_eq_none_iff.mp hfind existing hmem
      have href : buffer.refusesCritical policy event = true := by
        simp only [refusesCritical, hfull, hcrit, hall, Bool.and_self]
      exact .inr (.inr ⟨rfl, rfl, by rw [if_pos href]; rfl, hevict⟩)
    | some index =>
      rw [hfind] at hpush
      cases hpush
      obtain ⟨hlt, hordinary, -⟩ := findIdx?_eq_some_iff_getElem.mp hfind
      have hsplit : buffer.events =
          buffer.events.take index ++ buffer.events[index] :: buffer.events.drop (index + 1) := by
        rw [getElem_cons_drop, take_append_drop]
      refine .inr (.inl ⟨_, _, _, rfl, hsplit, ?_, ?_, ?_⟩)
      · rw [replaceAt, eraseIdx_eq_take_drop_succ]
      · rw [hevict]
        simpa using hordinary
      · rw [refusesCritical, and_eq_false_iff, all_eq_false]
        exact .inr ⟨_, getElem_mem hlt, by simpa using hordinary⟩
  rw [if_neg hcrit] at hpush
  have hcrit' : policy.critical event = false := by simpa using hcrit
  have href : buffer.refusesCritical policy event = false := by
    simp [refusesCritical, hcrit']
  by_cases holdest : policy.dropOldestObservational = true
  · -- the oldest event goes, whatever its type; a full buffer has one
    rw [if_pos holdest] at hpush
    cases hpush
    have hcap : 1 ≤ policy.capacity := by simp [BackpressurePolicy.capacity]
    cases hevents : buffer.events with
    | nil =>
      rw [hevents] at hroom
      simp only [length_nil] at hroom
      omega
    | cons oldest rest =>
      refine .inr (.inl ⟨[], oldest, rest, rfl, rfl, ?_, ?_, href⟩)
      · simp [replaceAt, hevents]
      · rw [evictsCritical, hfull, hcrit', holdest, hevents]
        simp
  · rw [if_neg holdest] at hpush
    cases hpush
    refine .inr (.inr ⟨rfl, rfl, ?_, ?_⟩)
    · rw [if_neg (by simp [href])]
    · simp [evictsCritical, holdest]

theorem pushes_unique (s : EventBuffer) (l : RuntimeEvent × Bool) (t t' : EventBuffer)
    (h : Pushes policy s l t) (h' : Pushes policy s l t') : t = t' :=
  (Prod.mk.inj (h.symm.trans h')).1

@[simp] theorem pushedEvents_snoc :
    pushedEvents (tr ++ [(event, accepted)]) = pushedEvents tr ++ [event] := by
  simp [pushedEvents]

@[simp] theorem acceptedEvents_accepted :
    acceptedEvents (tr ++ [(event, true)]) = acceptedEvents tr ++ [event] := by
  simp [acceptedEvents]

@[simp] theorem acceptedEvents_refused :
    acceptedEvents (tr ++ [(event, false)]) = acceptedEvents tr := by
  simp [acceptedEvents]

theorem acceptedEvents_sublist : (acceptedEvents tr).Sublist (pushedEvents tr) :=
  filter_sublist.map Prod.fst

/-! ## Whole runs -/

/-- What every push keeps: the bound, and that the buffer holds taken events in their
order. -/
structure Held (policy : BackpressurePolicy) (tr : List (RuntimeEvent × Bool))
    (buffer : EventBuffer) : Prop where
  bounded : buffer.events.length ≤ policy.capacity
  ordered : buffer.events.Sublist (acceptedEvents tr)

theorem Held.push (hheld : Held policy tr buffer)
    (h : Pushes policy buffer (event, accepted) buffer') :
    Held policy (tr ++ [(event, accepted)]) buffer' := by
  rcases push_cases h with ⟨rfl, hroom, rfl, -, -⟩ | ⟨before, victim, after, rfl, hsplit, rfl, -, -⟩ |
    ⟨rfl, hevents, -, -⟩
  · refine ⟨?_, ?_⟩
    · simp only [length_append, length_singleton]
      omega
    · rw [acceptedEvents_accepted]
      exact hheld.ordered.append_right [event]
  · have hbound := hheld.bounded
    have hordered := hheld.ordered
    rw [hsplit] at hbound hordered
    refine ⟨?_, ?_⟩
    · simp only [length_append, length_cons, length_nil] at hbound ⊢
      omega
    · rw [acceptedEvents_accepted]
      have hless : (before ++ after).Sublist (before ++ victim :: after) :=
        (sublist_cons_self victim after).append_left before
      exact (hless.trans hordered).append_right [event]
  · exact ⟨hevents ▸ hheld.bounded, by rw [hevents, acceptedEvents_refused]; exact hheld.ordered⟩

theorem held_of_run (h : Run (Pushes policy) empty tr buffer) : Held policy tr buffer := by
  refine h.forward_induction (P := fun tr buffer => Held policy tr buffer) ?_ ?_
  · exact ⟨Nat.zero_le _, List.Sublist.refl []⟩
  · intro tr t l u _ hheld hs
    exact hheld.push hs

/-- A push that spares the critical events keeps the promise. -/
theorem Faithful.push (hheld : Held policy tr buffer) (hfaithful : Faithful policy tr buffer)
    (hspares : Spares policy buffer (event, accepted))
    (h : Pushes policy buffer (event, accepted) buffer') :
    Faithful policy (tr ++ [(event, accepted)]) buffer' := by
  have hheld' := hheld.push h
  have hcounted := hfaithful.counted
  have hkept := hfaithful.kept
  have hbounded : buffer'.events.length ≤ max 1 policy.maxBuffered := by
    have := hheld'.bounded
    rw [BackpressurePolicy.capacity, Nat.max_comm] at this
    exact this
  have hordered := hheld'.ordered.trans acceptedEvents_sublist
  obtain ⟨hevicts, hrefuses⟩ := hspares
  rcases push_cases h with ⟨rfl, -, rfl, -, -⟩ | ⟨before, victim, after, rfl, hsplit, rfl, hvictim, -⟩ |
    ⟨rfl, hevents, hdropped, -⟩
  · refine ⟨hbounded, hordered, ?_, ?_⟩
    · rw [acceptedEvents_accepted, filter_append]
      exact hkept.append filter_sublist
    · simp only [pushedEvents_snoc, length_append]
      omega
  · -- the victim is not critical, so what was kept is kept without it
    have hordinary : policy.critical victim = false := hvictim ▸ hevicts
    rw [hsplit] at hkept hcounted
    refine ⟨hbounded, hordered, ?_, ?_⟩
    · have hrest : ((acceptedEvents tr).filter policy.critical).Sublist (before ++ after) := by
        have hfiltered := hkept.filter policy.critical
        simp only [filter_filter, Bool.and_self, filter_append,
          filter_cons_of_neg (ne_true_of_eq_false hordinary)] at hfiltered
        exact hfiltered.trans (filter_sublist.append filter_sublist)
      rw [acceptedEvents_accepted, filter_append]
      exact hrest.append filter_sublist
    · simp only [pushedEvents_snoc, length_append, length_cons,
        length_nil] at hcounted ⊢
      omega
  · rw [if_neg (by simp [hrefuses])] at hdropped
    refine ⟨hbounded, hordered, ?_, ?_⟩
    · rw [acceptedEvents_refused, hevents]
      exact hkept
    · simp only [pushedEvents_snoc, length_append, length_singleton, hevents]
      omega

/-- A push after which the promise still holds has spared them. -/
theorem Faithful.spares (hheld : Held policy tr buffer) (hfaithful : Faithful policy tr buffer)
    (h : Pushes policy buffer (event, accepted) buffer')
    (hfaithful' : Faithful policy (tr ++ [(event, accepted)]) buffer') :
    Spares policy buffer (event, accepted) := by
  have hcounted := hfaithful.counted
  have hcounted' := hfaithful'.counted
  have hkept' := hfaithful'.kept
  rcases push_cases h with ⟨-, -, -, hevicts, hrefuses⟩ |
    ⟨before, victim, after, rfl, hsplit, rfl, hvictim, hrefuses⟩ | ⟨rfl, hevents, hdropped, hevicts⟩
  · exact ⟨hevicts, hrefuses⟩
  · refine ⟨?_, hrefuses⟩
    rw [eq_false_iff]
    intro hevicts
    have hcritical : policy.critical victim = true := hvictim ▸ hevicts
    -- counted: the critical events taken, those there before, and those there now
    have htaken : buffer.events.countP policy.critical ≤
        (acceptedEvents tr).countP policy.critical := hheld.ordered.countP_le
    have hnow : (acceptedEvents (tr ++ [(event, true)])).countP policy.critical ≤
        (before ++ after ++ [event]).countP policy.critical := by
      have hfiltered : _ ≤ (before ++ after ++ [event]).countP policy.critical := hkept'.countP_le
      simpa only [countP_filter, Bool.and_self] using hfiltered
    rw [hsplit] at htaken
    simp only [acceptedEvents_accepted, countP_append, countP_cons, countP_nil,
      hcritical, if_true] at htaken hnow
    omega
  · refine ⟨hevicts, ?_⟩
    rw [eq_false_iff]
    intro hrefuses
    rw [if_pos hrefuses] at hdropped
    simp only [pushedEvents_snoc, length_append, length_singleton, hevents] at hcounted'
    omega

end

/-- **The promise, exactly.**  Along a run from the empty buffer every state reached keeps
the promise just when no push gives up or refuses a critical event. -/
theorem push_faithful_iff {policy : BackpressurePolicy} {tr : List (RuntimeEvent × Bool)}
    {buffer : EventBuffer} (h : Run (Pushes policy) empty tr buffer) :
    (∀ earlier later reached, tr = earlier ++ later →
      Run (Pushes policy) empty earlier reached → Faithful policy earlier reached) ↔
    Along (Pushes policy) (Spares policy) empty tr := by
  constructor
  · rintro hall earlier ⟨event, accepted⟩ later reached rfl hrun
    obtain ⟨before, after, hbefore, hstep, -⟩ := h.step_of_split
    obtain rfl := Run.unique pushes_unique hrun hbefore
    have hfaithful := hall earlier _ _ rfl hrun
    have hfaithful' := hall (earlier ++ [(event, accepted)]) later after (by simp) (hrun.snoc hstep)
    exact hfaithful.spares (held_of_run hrun) hstep hfaithful'
  · rintro hspares earlier later reached rfl hrun
    refine hrun.forward_induction
      (P := fun tr t => Along (Pushes policy) (Spares policy) empty tr → Faithful policy tr t)
      ?_ ?_ hspares.left
    · intro _
      exact ⟨Nat.zero_le _, List.Sublist.refl [], List.Sublist.refl [], rfl⟩
    · rintro tr t ⟨event, accepted⟩ u hrun ih hs hC
      exact (ih hC.left).push (held_of_run hrun) (hC.last hrun) hs

/-! ## A buffer of one -/

def proofPolicy : BackpressurePolicy := ⟨1, true, OrderedSet.ofList ["proof"]⟩

def scrollEvent : RuntimeEvent := ⟨1#128, "scroll"⟩

def proofEvent : RuntimeEvent := ⟨2#128, "proof"⟩

theorem pushes_scroll :
    Pushes proofPolicy empty (scrollEvent, true) ⟨[scrollEvent], 0⟩ := by
  unfold Pushes; decide +kernel

theorem pushes_scroll_proof :
    Pushes proofPolicy ⟨[scrollEvent], 0⟩ (proofEvent, true) ⟨[proofEvent], 1⟩ := by
  unfold Pushes; decide +kernel

theorem pushes_proof : Pushes proofPolicy empty (proofEvent, true) ⟨[proofEvent], 0⟩ := by
  unfold Pushes; decide +kernel

theorem pushes_proof_scroll :
    Pushes proofPolicy ⟨[proofEvent], 0⟩ (scrollEvent, true) ⟨[scrollEvent], 1⟩ := by
  unfold Pushes; decide +kernel

/-- A critical event takes the place of an ordinary one, and the promise is kept. -/
theorem push_faithful_iff_scrollProof :
    Faithful proofPolicy [(scrollEvent, true), (proofEvent, true)] ⟨[proofEvent], 1⟩ :=
  have hrun := Run.cons pushes_scroll (Run.cons pushes_scroll_proof (Run.nil _))
  (push_faithful_iff hrun).mpr
    (Along.cons_unique pushes_unique (by unfold Spares; decide +kernel) pushes_scroll
      (Along.cons_unique pushes_unique (by unfold Spares; decide +kernel) pushes_scroll_proof
        Along.nil)) _ [] _ rfl hrun

/-- An ordinary event takes the place of a critical one. -/
theorem proof_dropped :
    ¬ ∀ policy tr buffer, Run (Pushes policy) empty tr buffer → Faithful policy tr buffer := by
  intro hall
  have hkept := (hall _ _ _ (Run.cons pushes_proof (Run.cons pushes_proof_scroll (Run.nil _)))).kept
  revert hkept
  decide +kernel

end EventBuffer
end Localview.RuntimeAbi
