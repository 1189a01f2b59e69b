import Localview.OrderedSet
import Localview.Protocol
import Localview.StateRun
import Mathlib.Data.String.Basic

/-! # Agent leases

The lease table of `crates/multi-agent`: leases of agents on named resources, the
conflict of two of them, and the calls that change the table.  A clock reading is an
argument of each call and nothing relates the readings of two calls.

Two leases clash when agents of one session share a resource and at least one of them
may mutate it.  `Exclusive` says that no two leases of the table do.  Expiry plays no
part in it: a lease that has expired and was not reaped yet still bars a clash, and a
renewal changes an expiry and nothing else.
-/
namespace Localview.MultiAgent
open StateRun List OrderedMap OrderedSet

abbrev AgentId := Uuid

/-! ## Leases -/

/-- What an agent may do beside others. -/
inductive IsolationLevel
  | readOnly
  | sharedPerception
  | isolatedMutation
  | exclusiveMutation
  deriving DecidableEq

/-- The place of a level in the derived order. -/
def IsolationLevel.rank : IsolationLevel → Nat
  | .readOnly => 0
  | .sharedPerception => 1
  | .isolatedMutation => 2
  | .exclusiveMutation => 3

instance : LinearOrder IsolationLevel :=
  LinearOrder.lift' IsolationLevel.rank fun a b h => by cases a <;> cases b <;> first | rfl | cases h

/-- Times are nanoseconds. -/
structure AgentLease where
  id : Uuid
  agentId : AgentId
  sessionId : SessionId
  isolation : IsolationLevel
  resources : OrderedSet String
  (acquiredAt expiresAt : Int)
  deriving DecidableEq

def AgentLease.activeAt (lease : AgentLease) (now : Int) : Bool := decide (now < lease.expiresAt)

/-- Two leases that exclude each other. -/
structure Conflict where
  (leftLease rightLease : Uuid)
  resources : List String
  reason : String
  deriving DecidableEq

def conflict (left right : AgentLease) : Option Conflict :=
  if left.agentId = right.agentId then none
  else
    let overlap := left.resources.intersection right.resources
    if overlap = [] then none
    else if IsolationLevel.isolatedMutation ≤ left.isolation ∨
        IsolationLevel.isolatedMutation ≤ right.isolation then
      some {
        leftLease := left.id
        rightLease := right.id
        resources := overlap
        reason := "overlapping mutable resource lease" }
    else none

/-! ## The table -/

structure LeaseTable where
  leases : OrderedMap Uuid AgentLease

/-- `DateTime::<Utc>::MAX_UTC`, in nanoseconds. -/
def maxUtc : Int := 8210266876799999999999

/-- `now + ttl.max(Duration::seconds(1))`; the addition panics past the last time there is. -/
def leaseExpiry (now ttl : Int) : Option Int :=
  if now + max ttl 1000000000 ≤ maxUtc then some (now + max ttl 1000000000) else none

namespace LeaseTable

def empty : LeaseTable := ⟨OrderedMap.empty⟩

def reap (table : LeaseTable) (now : Int) : LeaseTable :=
  ⟨table.leases.retain fun _ lease => lease.activeAt now⟩

/-- What the caller asks for; the id is the one drawn for it. -/
structure Proposal where
  leaseId : Uuid
  agentId : AgentId
  sessionId : SessionId
  isolation : IsolationLevel
  resources : OrderedSet String
  (ttl now : Int)

def Proposal.lease (p : Proposal) (expiresAt : Int) : AgentLease :=
  { id := p.leaseId, agentId := p.agentId, sessionId := p.sessionId, isolation := p.isolation
    resources := p.resources, acquiredAt := p.now, expiresAt }

def conflicts (table : LeaseTable) (proposed : AgentLease) : List Conflict :=
  (table.leases.values.filter fun existing =>
    decide (existing.sessionId = proposed.sessionId)).filterMap fun existing =>
      conflict existing proposed

/-- `acquire`; there is no answer where the expiry cannot be computed, but the expired
leases are gone then too. -/
def acquire (table : LeaseTable) (p : Proposal) :
    Option (Except (List Conflict) AgentLease) × LeaseTable :=
  let table := table.reap p.now
  match leaseExpiry p.now p.ttl with
  | none => (none, table)
  | some expiresAt =>
      let proposed := p.lease expiresAt
      let conflicts := table.conflicts proposed
      if conflicts ≠ [] then (some (.error conflicts), table)
      else (some (.ok proposed), ⟨table.leases.insert proposed.id proposed⟩)

def renew (table : LeaseTable) (leaseId : Uuid) (ttl now : Int) : Option Bool × LeaseTable :=
  match table.leases.get leaseId with
  | none => (some false, table)
  | some lease =>
      if lease.activeAt now = false then (some false, ⟨table.leases.erase leaseId⟩)
      else
        match leaseExpiry now ttl with
        | none => (none, table)
        | some expiresAt => (some true, ⟨table.leases.insert leaseId { lease with expiresAt }⟩)

def release (table : LeaseTable) (leaseId : Uuid) : Bool × LeaseTable :=
  ((table.leases.get leaseId).isSome, ⟨table.leases.erase leaseId⟩)

end LeaseTable

/-- A call of the table. -/
inductive LeaseCall
  | acquire (p : LeaseTable.Proposal)
  | renew (leaseId : Uuid) (ttl now : Int)
  | release (leaseId : Uuid)
  | reap (now : Int)

/-- The table after a call, whatever its answer. -/
def LeaseTable.after (table : LeaseTable) : LeaseCall → LeaseTable
  | .acquire p => (table.acquire p).2
  | .renew leaseId ttl now => (table.renew leaseId ttl now).2
  | .release leaseId => (table.release leaseId).2
  | .reap now => table.reap now

def LeaseStep (table : LeaseTable) (call : LeaseCall) (table' : LeaseTable) : Prop :=
  table' = table.after call

/-- Different agents share a resource, and one of them may mutate it. -/
structure Clash (l l' : AgentLease) : Prop where
  agents : l.agentId ≠ l'.agentId
  shared : ∃ r, r ∈ l.resources.toList ∧ r ∈ l'.resources.toList
  mutation : IsolationLevel.isolatedMutation ≤ l.isolation ∨
    IsolationLevel.isolatedMutation ≤ l'.isolation

theorem Clash.symm {l l' : AgentLease} (h : Clash l l') : Clash l' l := by
  obtain ⟨r, hr, hr'⟩ := h.shared
  exact ⟨h.agents.symm, ⟨r, hr', hr⟩, h.mutation.symm⟩

/-- The code's `conflict` reports the clashes, and names both leases and what they share. -/
theorem conflict_eq_some {l l' : AgentLease} {c : Conflict} (h : conflict l l' = some c) :
    Clash l l' ∧ c.leftLease = l.id ∧ c.rightLease = l'.id ∧
      c.resources = l.resources.intersection l'.resources := by
  simp only [conflict] at h
  by_cases hagent : l.agentId = l'.agentId
  · rw [if_pos hagent] at h
    cases h
  rw [if_neg hagent] at h
  by_cases hoverlap : l.resources.intersection l'.resources = []
  · rw [if_pos hoverlap] at h
    cases h
  rw [if_neg hoverlap] at h
  split_ifs at h with hmut
  cases h
  obtain ⟨r, hr⟩ := exists_mem_of_ne_nil _ hoverlap
  rw [OrderedSet.intersection, mem_filter, OrderedSet.contains_iff] at hr
  exact ⟨⟨hagent, ⟨r, hr⟩, hmut⟩, rfl, rfl, rfl⟩

theorem conflict_of_clash {l l' : AgentLease} (h : Clash l l') : (conflict l l').isSome := by
  obtain ⟨r, hr⟩ := h.shared
  have hoverlap : l.resources.intersection l'.resources ≠ [] := by
    apply ne_nil_of_mem (a := r)
    rw [OrderedSet.intersection, mem_filter, OrderedSet.contains_iff]
    exact hr
  rw [conflict, if_neg h.agents]
  simp only [if_neg hoverlap, if_pos h.mutation, Option.isSome_some]

/-! ## What the table keeps -/

namespace LeaseTable

/-- Each lease stands under its id, and no two leases of one session clash. -/
structure Exclusive (table : LeaseTable) : Prop where
  keyed : ∀ {id lease}, table.leases.get id = some lease → lease.id = id
  apart : ∀ {id id' l l'}, table.leases.get id = some l → table.leases.get id' = some l' →
    l.sessionId = l'.sessionId → ¬ Clash l l'

theorem Exclusive.empty : Exclusive empty where
  keyed h := by cases h
  apart h := by cases h

theorem Exclusive.mono {table table' : LeaseTable} (h : table.Exclusive)
    (hsub : ∀ {id lease}, table'.leases.get id = some lease → table.leases.get id = some lease) :
    table'.Exclusive where
  keyed hl := h.keyed (hsub hl)
  apart hl hl' := h.apart (hsub hl) (hsub hl')

variable {table : LeaseTable}

theorem get_reap {now : Int} {id : Uuid} {lease : AgentLease} :
    (table.reap now).leases.get id = some lease ↔
      table.leases.get id = some lease ∧ lease.activeAt now = true :=
  get_retain_eq_some

theorem Exclusive.reap (h : table.Exclusive) (now : Int) :
    (table.reap now).Exclusive :=
  h.mono fun hl => (get_reap.mp hl).1

theorem Exclusive.erase (h : table.Exclusive) (id : Uuid) :
    Exclusive ⟨table.leases.erase id⟩ :=
  h.mono fun hl => (OrderedMap.get_erase_eq_some.mp hl).1

/-- A lease goes in where it clashes with none of its session. -/
theorem Exclusive.insert (h : table.Exclusive) (lease : AgentLease)
    (hnew : ∀ {id l}, id ≠ lease.id → table.leases.get id = some l →
      l.sessionId = lease.sessionId → ¬ Clash l lease) :
    Exclusive ⟨table.leases.insert lease.id lease⟩ where
  keyed {id l} hl := by
    rw [get_insert] at hl
    split_ifs at hl with hid
    · exact (Option.some.inj hl) ▸ hid.symm
    · exact h.keyed hl
  apart {id id' l l'} hl hl' hsession := by
    rw [get_insert] at hl hl'
    split_ifs at hl hl' with hid hid'
    -- both are the new lease, one of them is, or neither
    · cases hl
      cases hl'
      exact fun hclash => hclash.agents rfl
    · cases hl
      exact fun hclash => hnew ‹_› hl' hsession.symm hclash.symm
    · cases hl'
      exact hnew hid hl hsession
    · exact h.apart hl hl' hsession

/-! ## Acquiring -/

theorem mem_conflicts {proposed : AgentLease} {c : Conflict} :
    c ∈ table.conflicts proposed ↔ ∃ id l, table.leases.get id = some l ∧
      l.sessionId = proposed.sessionId ∧ conflict l proposed = some c := by
  rw [conflicts, mem_filterMap]
  constructor
  · rintro ⟨l, hmem, hc⟩
    rw [mem_filter, decide_eq_true_iff] at hmem
    obtain ⟨id, hl⟩ := OrderedMap.mem_values.mp hmem.1
    exact ⟨id, l, hl, hmem.2, hc⟩
  · rintro ⟨id, l, hl, hsession, hc⟩
    refine ⟨l, ?_, hc⟩
    rw [mem_filter, decide_eq_true_iff]
    exact ⟨OrderedMap.mem_values.mpr ⟨id, hl⟩, hsession⟩

theorem Exclusive.named (h : table.Exclusive) {proposed : AgentLease} {id : Uuid} :
    (∃ c ∈ table.conflicts proposed, c.leftLease = id) ↔
      ∃ l, table.leases.get id = some l ∧ l.sessionId = proposed.sessionId ∧
        Clash l proposed := by
  constructor
  · rintro ⟨c, hc, rfl⟩
    obtain ⟨id, l, hl, hsession, hsome⟩ := mem_conflicts.mp hc
    obtain ⟨hclash, hleft, -⟩ := conflict_eq_some hsome
    rw [hleft, h.keyed hl]
    exact ⟨l, hl, hsession, hclash⟩
  · rintro ⟨l, hl, hsession, hclash⟩
    obtain ⟨c, hc⟩ := Option.isSome_iff_exists.mp (conflict_of_clash hclash)
    refine ⟨c, mem_conflicts.mpr ⟨id, l, hl, hsession, hc⟩, ?_⟩
    rw [(conflict_eq_some hc).2.1, h.keyed hl]

/-- **What `acquire` does.**  It reaps.  It stops there without an expiry or with the
conflicts it found; having found none it puts the proposed lease in. -/
theorem acquire_cases (table : LeaseTable) (p : Proposal) :
    table.acquire p = (none, table.reap p.now) ∨
    ∃ expiresAt, leaseExpiry p.now p.ttl = some expiresAt ∧
      ((table.reap p.now).conflicts (p.lease expiresAt) ≠ [] ∧
        table.acquire p =
          (some (.error ((table.reap p.now).conflicts (p.lease expiresAt))), table.reap p.now) ∨
       (table.reap p.now).conflicts (p.lease expiresAt) = [] ∧
        table.acquire p = (some (.ok (p.lease expiresAt)),
          ⟨(table.reap p.now).leases.insert p.leaseId (p.lease expiresAt)⟩)) := by
  simp only [acquire]
  cases hexp : leaseExpiry p.now p.ttl with
  | none => exact .inl rfl
  | some expiresAt =>
    refine .inr ⟨expiresAt, rfl, ?_⟩
    by_cases hnone : (table.reap p.now).conflicts (p.lease expiresAt) = []
    · exact .inr ⟨hnone, if_neg (not_not.mpr hnone)⟩
    · exact .inl ⟨hnone, if_pos hnone⟩

/-- A renewed lease clashes with what it clashed with. -/
theorem Exclusive.extend (h : table.Exclusive) {id : Uuid} {lease : AgentLease}
    (hl : table.leases.get id = some lease) (expiresAt : Int) :
    Exclusive ⟨table.leases.insert id { lease with expiresAt }⟩ := by
  obtain rfl : lease.id = id := h.keyed hl
  apply h.insert { lease with expiresAt }
  intro id' l _ hl' hsession hclash
  exact h.apart hl' hl hsession ⟨hclash.agents, hclash.shared, hclash.mutation⟩

/-- Every call keeps the leases of a session apart. -/
theorem Exclusive.after (h : table.Exclusive) (call : LeaseCall) :
    (table.after call).Exclusive := by
  cases call with
  | acquire p =>
    obtain hstop | ⟨expiresAt, -, ⟨-, hrefused⟩ | ⟨hnone, hgranted⟩⟩ := acquire_cases table p
    · rw [LeaseTable.after, hstop]
      exact h.reap p.now
    · rw [LeaseTable.after, hrefused]
      exact h.reap p.now
    · rw [LeaseTable.after, hgranted]
      apply (h.reap p.now).insert (p.lease expiresAt)
      intro id l _ hl hsession hclash
      obtain ⟨c, hc, -⟩ := (h.reap p.now).named.mpr ⟨l, hl, hsession, hclash⟩
      rw [hnone] at hc
      cases hc
  | renew leaseId ttl now =>
    simp only [LeaseTable.after, renew]
    cases hl : table.leases.get leaseId with
    | none => exact h
    | some lease =>
      dsimp only
      split_ifs
      · exact h.erase leaseId
      · cases leaseExpiry now ttl with
        | none => exact h
        | some expiresAt => exact h.extend hl expiresAt
  | release leaseId => exact h.erase leaseId
  | reap now => exact h.reap now

end LeaseTable

/-- **Leases are mutually exclusive.**  After any calls at any clock readings, leases of
different agents of one session that share a resource are both below `IsolatedMutation`.
A refused `acquire` keeps every lease that has not expired, brings in none, and names the
leases it clashes with and no others. -/
theorem leases_exclude {tr : List LeaseCall} {table : LeaseTable}
    (hrun : Run LeaseStep LeaseTable.empty tr table) :
    (∀ l ∈ table.leases.values, ∀ l' ∈ table.leases.values, l.sessionId = l'.sessionId →
      l.agentId ≠ l'.agentId → (∃ r, r ∈ l.resources.toList ∧ r ∈ l'.resources.toList) →
        l.isolation < .isolatedMutation ∧ l'.isolation < .isolatedMutation) ∧
    ∀ (p : LeaseTable.Proposal) (conflicts : List Conflict),
      (table.acquire p).1 = some (.error conflicts) →
      (∀ id l, (table.acquire p).2.leases.get id = some l ↔
        table.leases.get id = some l ∧ l.activeAt p.now = true) ∧
      ∃ expiresAt, leaseExpiry p.now p.ttl = some expiresAt ∧
        ∀ id, (∃ c ∈ conflicts, c.leftLease = id) ↔
          ∃ l, table.leases.get id = some l ∧ l.activeAt p.now = true ∧
            l.sessionId = p.sessionId ∧ Clash l (p.lease expiresAt) := by
  have hinv : table.Exclusive := by
    refine hrun.invariant (I := LeaseTable.Exclusive) ?_ LeaseTable.Exclusive.empty
    rintro s call _ hs rfl
    exact hs.after call
  constructor
  · intro l hl l' hl' hsession hagent hshared
    obtain ⟨id, hget⟩ := OrderedMap.mem_values.mp hl
    obtain ⟨id', hget'⟩ := OrderedMap.mem_values.mp hl'
    have hapart := hinv.apart hget hget' hsession
    constructor
    · exact not_le.mp fun hmut => hapart ⟨hagent, hshared, .inl hmut⟩
    · exact not_le.mp fun hmut => hapart ⟨hagent, hshared, .inr hmut⟩
  · intro p conflicts hrefusal
    obtain hstop | ⟨expiresAt, hexp, ⟨-, hrefused⟩ | ⟨-, hgranted⟩⟩ :=
      LeaseTable.acquire_cases table p
    · rw [hstop] at hrefusal
      cases hrefusal
    · rw [hrefused] at hrefusal ⊢
      obtain rfl := Except.error.inj (Option.some.inj hrefusal)
      refine ⟨fun id l => LeaseTable.get_reap, expiresAt, hexp, fun id => ?_⟩
      rw [(hinv.reap p.now).named]
      refine exists_congr fun l => ?_
      rw [LeaseTable.get_reap, and_assoc]
      rfl
    · rw [hgranted] at hrefusal
      cases hrefusal

/-- A holder of an exclusive lease, then a reader at a clock an hour behind: both are kept,
and a third agent is refused what the first one holds. -/
theorem leases_exclude_run :
    let held : LeaseTable.Proposal :=
      { leaseId := 1, agentId := 11, sessionId := 5, isolation := .exclusiveMutation
        resources := OrderedSet.ofList ["src/App.tsx"], ttl := 30000000000, now := 3600000000000 }
    let read : LeaseTable.Proposal :=
      { leaseId := 2, agentId := 12, sessionId := 5, isolation := .readOnly
        resources := OrderedSet.ofList ["hero"], ttl := 0, now := 0 }
    let refused := { held with leaseId := 3, agentId := 13, now := 0 }
    let table := (LeaseTable.empty.after (.acquire held)).after (.acquire read)
    table.leases.values.length = 2 ∧
    (table.acquire refused).1 = some (.error [
      { leftLease := 1, rightLease := 3, resources := ["src/App.tsx"]
        reason := "overlapping mutable resource lease" }]) ∧
    ∀ id l, (table.acquire refused).2.leases.get id = some l ↔
      table.leases.get id = some l ∧ l.activeAt 0 = true := by
  intro held read refused table
  have hrun : Run LeaseStep LeaseTable.empty [.acquire held, .acquire read] table :=
    Run.cons rfl (Run.cons rfl (Run.nil _))
  have hrefused : (table.acquire refused).1 = some (.error [
      { leftLease := 1, rightLease := 3, resources := ["src/App.tsx"]
        reason := "overlapping mutable resource lease" }]) := by
    decide +kernel
  exact ⟨by decide +kernel, hrefused, ((leases_exclude hrun).2 refused _ hrefused).1⟩

end Localview.MultiAgent
