import Localview.Interleaving
import Localview.KeyedGates

/-! # Fix proposals

`FixProposalStore` of the desktop's `trusted_fix`, shared by the commands: the proposals
that wait for the human's decision, and one gate a source file under which they are
applied.  `begin_apply` looks at a proposal, lets go of the store while the preflight runs
and then looks again, so that everything can happen in between.
-/
namespace Localview.FixProposals
open Interleaving Interleaving.Call StateRun List AssocMap Option KeyedGates Shared

/-! ## Records -/

/-- Where a proposal stands. -/
inductive FixProposalStatus
  | pending
  | applying
  | applied
  | discarded
  | invalidated
  deriving DecidableEq

/-- What the preflight of a proposal says. -/
inductive PreflightVerdict
  | rejected
  | inconclusive
  deriving DecidableEq

/-- What `begin_apply` reads of a preflight's receipt. -/
structure Preflight where
  baseRevision : Option String
  verdict : PreflightVerdict
  deriving DecidableEq

/-- A proposal as it is stored. -/
structure FixProposalRecord where
  (proposalId sessionId canonicalFile : String)
  expiresAt : Nat
  status : FixProposalStatus
  wave9Preflight : Option Preflight
  deriving DecidableEq

def maxFixProposals : Nat := 8

/-- The session's count of those is bounded. -/
def FixProposalRecord.isOpen (r : FixProposalRecord) : Bool :=
  r.status = .pending || r.status = .applying

/-- What the calls do that matters later. -/
inductive FixProposalEvent
  | inserted (record : FixProposalRecord)
  | preflighted (proposalId : String) (preflight : Preflight)
  | began (record : FixProposalRecord) (now : Nat)
  | lapsed (proposalId : String)
  | completed (proposalId : String)
  | invalidated (proposalId : String)
  | discarded (record : FixProposalRecord)
  | opened (handle : Nat) (path : String)
  | entered (path : String)
  | left (path : String)
  | dropped (handle : Nat)
  deriving DecidableEq

abbrev Proposals : Type := AssocMap String FixProposalRecord

/-- The store; `issued` are the ids that have been inserted. -/
structure FixProposalStore where
  proposals : Proposals
  gates : KeyedGates String
  issued : List String

def FixProposalStore.new : FixProposalStore :=
  { proposals := AssocMap.empty, gates := empty, issued := [] }

abbrev StoreCall (α : Type) : Type := Call FixProposalStore FixProposalEvent String α

/-! ## The store's operations -/

/-- The first pass of `reap_expired_locked` on a record. -/
def FixProposalRecord.expire (now : Nat) (r : FixProposalRecord) : FixProposalRecord :=
  if r.status = .pending ∧ r.expiresAt ≤ now then { r with status := .invalidated } else r

/-- The second pass keeps the record. -/
def FixProposalRecord.isKept (now : Nat) (r : FixProposalRecord) : Bool :=
  match r.status with
  | .pending => now < r.expiresAt
  | .applying => true
  | .applied | .discarded | .invalidated => false

/-- `reap_expired_locked`; the records that the first pass changes do not stay. -/
def reapExpiredLocked (proposals : Proposals) (now : Nat) : Proposals :=
  proposals.retain fun _ r => (r.expire now).isKept now

def FixProposalStore.withProposals (s : FixProposalStore) (now : Nat) {α : Type}
    (f : Proposals → Except String α × Proposals × List FixProposalEvent) :
    Except String α × FixProposalStore × List FixProposalEvent :=
  let r := f (reapExpiredLocked s.proposals now)
  (r.1, { s with proposals := r.2.1 }, r.2.2)

def reapExpired (now : Nat) : StoreCall Unit :=
  locked fun s => s.withProposals now fun proposals => (.ok (), proposals, [])

/-- `insert`; ids are new. -/
def insert (proposal : FixProposalRecord) (now : Nat) : StoreCall Unit :=
  await (fun s => proposal.proposalId ∉ s.issued) fun s =>
    ({ s with issued := proposal.proposalId :: s.issued }).withProposals now fun proposals =>
      if maxFixProposals ≤ proposals.size then
        (.error "trusted Fix proposal capacity exceeded", proposals, [])
      else if 2 ≤ proposals.count fun current =>
          current.sessionId = proposal.sessionId && current.isOpen then
        (.error "trusted Fix session proposal capacity exceeded", proposals, [])
      else
        (.ok (), proposals.insert proposal.proposalId proposal, [.inserted proposal])

/-- What `begin_apply` finds outside: the clock at its four readings, the preflight and the
revision after it. -/
structure BeginAnswers where
  (reap₁ check₁ : Nat)
  preflight : FixProposalRecord → Except String Preflight
  currentRevision : Except String String
  (reap₂ check₂ : Nat)

section
variable (proposalId : String)

/-- The first critical section of `begin_apply`. -/
def lookPending (a : BeginAnswers) : StoreCall FixProposalRecord :=
  locked fun s => s.withProposals a.reap₁ fun proposals =>
    match proposals.get proposalId with
    | none => (.error "trusted Fix proposal is unavailable", proposals, [])
    | some proposal =>
        if proposal.expiresAt ≤ a.check₁ then
          (.error "trusted Fix proposal expired", proposals, [])
        else if proposal.status ≠ .pending then
          (.error "trusted Fix proposal is no longer pending", proposals, [])
        else (.ok proposal, proposals, [])

/-- The check for a drift of the revision. -/
def checkRevision (preflight : Preflight) (a : BeginAnswers) : StoreCall Unit :=
  match preflight.baseRevision with
  | none => pure ()
  | some preflightRevision => do
      let currentRevision ← ofExcept a.currentRevision
      reject (currentRevision ≠ preflightRevision)
        "Wave 9 project revision changed during candidate preflight"

/-- The second critical section of `begin_apply`. -/
def markApplying (preflight : Preflight) (a : BeginAnswers) :
    StoreCall FixProposalRecord :=
  locked fun s => s.withProposals a.reap₂ fun proposals =>
    match proposals.get proposalId with
    | none => (.error "trusted Fix proposal is unavailable", proposals, [])
    | some proposal =>
        if proposal.expiresAt ≤ a.check₂ then
          (.error "trusted Fix proposal expired",
            proposals.insert proposalId { proposal with status := .invalidated },
            [.lapsed proposalId])
        else if proposal.status ≠ .pending then
          (.error "trusted Fix proposal is no longer pending", proposals, [])
        else
          let applying : FixProposalRecord :=
            { proposal with wave9Preflight := some preflight, status := .applying }
          (.ok applying, proposals.insert proposalId applying, [.began applying a.check₂])

def beginApply (a : BeginAnswers) : StoreCall FixProposalRecord := do
  let pending ← lookPending proposalId a
  let preflight ← ofExcept (a.preflight pending)
  tell (.preflighted proposalId preflight)
  reject (preflight.verdict = .rejected)
    "Wave 9 candidate preflight rejected the pending Fix proposal"
  checkRevision preflight a
  markApplying proposalId preflight a

def completeApply (now : Nat) : StoreCall Unit :=
  locked fun s => s.withProposals now fun proposals =>
    match proposals.get proposalId with
    | none => (.error "trusted Fix proposal is unavailable", proposals, [])
    | some proposal =>
        if proposal.status ≠ .applying then
          (.error "trusted Fix proposal is not applying", proposals, [])
        else (.ok (), proposals.erase proposalId, [.completed proposalId])

def invalidate (now : Nat) : StoreCall Unit :=
  locked fun s => s.withProposals now fun proposals =>
    (.ok (), proposals.erase proposalId, [.invalidated proposalId])

def discard (now : Nat) : StoreCall Unit :=
  locked fun s => s.withProposals now fun proposals =>
    match proposals.get proposalId with
    | none => (.ok (), proposals.erase proposalId, [])
    | some proposal =>
        if proposal.status = .applying then
          (.error "trusted Fix proposal is currently applying", proposals, [])
        else (.ok (), proposals.erase proposalId, [.discarded proposal])

/-- `apply_gate_for`, the clone that the task keeps. -/
def applyGateFor (path : String) : StoreCall Nat :=
  update fun s => (s.gates.nextHandle, { s with gates := s.gates.acquire path },
    [.opened s.gates.nextHandle path])

def lockGate (handle : Nat) (path : String) : StoreCall Unit :=
  await (fun s => s.gates.isFree handle) fun s =>
    (.ok (), { s with gates := s.gates.setHolds handle true }, [.entered path])

/-- The guard is dropped. -/
def unlockGate (handle : Nat) (path : String) : StoreCall Unit :=
  update fun s => ((), { s with gates := s.gates.setHolds handle false }, [.left path])

/-- The clone is dropped. -/
def dropGate (handle : Nat) : StoreCall Unit :=
  update fun s => ((), { s with gates := s.gates.release handle }, [.dropped handle])

/-- Under the file's gate; a task that is cancelled while it waits only drops the clone. -/
def underGate (path : String) (waits : Bool) (body : StoreCall Unit) : StoreCall Unit := do
  let handle ← applyGateFor path
  if waits then do
    lockGate handle path
    let answer ← (body.attempt : StoreCall (Except String Unit))
    unlockGate handle path
    dropGate handle
    ofExcept answer
  else dropGate handle

/-! ## The commands -/

/-- How the command goes on once the proposal is being applied: it is cancelled while it
waits for the gate or while it holds it, or the work under the gate ends. -/
inductive ApplyFate
  | cancelledWaiting
  | cancelledHolding
  | ended (result : Except String Unit)

/-- The end of `apply_fix_proposal`. -/
def settleApply (now : Nat) : ApplyFate → StoreCall Unit
  | .cancelledWaiting | .cancelledHolding => pure ()
  | .ended (.ok ()) => completeApply proposalId now
  | .ended (.error e) => do
      invalidate proposalId now
      .fail e

def applyFixProposal (a : BeginAnswers) (fate : ApplyFate) (now : Nat) :
    StoreCall Unit := do
  let proposal ← beginApply proposalId a
  underGate proposal.canonicalFile (fate matches .cancelledHolding | .ended _)
    (settleApply proposalId now fate)

end

/-- A call of the store, with what it finds outside. -/
inductive FixProposalRequest
  | insert (proposal : FixProposalRecord) (now : Nat)
  | beginApply (proposalId : String) (a : BeginAnswers)
  | completeApply (proposalId : String) (now : Nat)
  | invalidate (proposalId : String) (now : Nat)
  | discard (proposalId : String) (now : Nat)
  | reapExpired (now : Nat)
  | underGate (path : String) (waits : Bool)
  | applyFixProposal (proposalId : String) (a : BeginAnswers) (fate : ApplyFate) (now : Nat)

def FixProposalRequest.body : FixProposalRequest → StoreCall Unit
  | .insert proposal now => FixProposals.insert proposal now
  | .beginApply proposalId a => do
      let _ ← FixProposals.beginApply proposalId a
  | .completeApply proposalId now => FixProposals.completeApply proposalId now
  | .invalidate proposalId now => FixProposals.invalidate proposalId now
  | .discard proposalId now => FixProposals.discard proposalId now
  | .reapExpired now => FixProposals.reapExpired now
  | .underGate path waits => FixProposals.underGate path waits (pure ())
  | .applyFixProposal proposalId a fate now =>
      FixProposals.applyFixProposal proposalId a fate now

/-- Any requests, any number of them. -/
def proposalSystem : System FixProposalStore FixProposalEvent FixProposalRequest where
  admits := fun _ _ => true
  body := fun request => do
    let _ ← request.body.attempt

/-! ## What holds of the store -/

section

abbrev StoreWorld : Type := Shared FixProposalStore FixProposalEvent

/-- The application of the proposal is over: it was completed, or invalidated, or a second
`begin_apply` has found the proposal expired. -/
def Over (w : StoreWorld) (id : String) : Prop :=
  w.Saw (.completed id) ∨ w.Saw (.invalidated id) ∨ w.Saw (.lapsed id)

/-- What the store has of a proposal that was begun as `r`. -/
structure Begun (w : StoreWorld) (r : FixProposalRecord) : Prop where
  issued : r.proposalId ∈ w.state.issued
  applying : r.status = .applying
  settled : ∀ r', w.state.proposals.get r.proposalId = some r' → r'.status ≠ .pending
  stays : w.state.proposals.get r.proposalId = some r ∨ Over w r.proposalId

/-- The proposals, with what has been noted of them. -/
structure Stored (w : StoreWorld) : Prop where
  capacity : w.state.proposals.size ≤ maxFixProposals
  sessions : ∀ sessionId, (w.state.proposals.count fun r => r.sessionId = sessionId && r.isOpen) ≤ 2
  entry : ∀ id r, w.state.proposals.get id = some r →
    r.proposalId = id ∧ id ∈ w.state.issued ∧ (r.status = .pending → w.Saw (.inserted r))
  begun : ∀ r now, w.Saw (.began r now) → Begun w r

/-- The task has locked the gate of the path and not left it. -/
def Inside (t : Nat) (path : String) (log : List (Nat × FixProposalEvent)) : Prop :=
  (t, .entered path) ∈ log ∧ (t, .left path) ∉ log

/-- The gates, with what the tasks have noted of them. -/
structure Tasks (w : StoreWorld) : Prop where
  exclusive : w.state.gates.Exclusive
  opened : ∀ t n path, (t, .opened n path) ∈ w.log → n < w.state.gates.nextHandle ∧
    ∀ t' path', (t', .opened n path') ∈ w.log → t' = t ∧ path' = path
  held : ∀ t n path, (t, .opened n path) ∈ w.log → (t, .dropped n) ∈ w.log ∨
    ∃ h ∈ w.state.gates.handles, h.id = n ∧ h.key = path
  inside : ∀ t path, Inside t path w.log → ∃ n, (t, .opened n path) ∈ w.log ∧
    ∃ h ∈ w.state.gates.handles, h.id = n ∧ h.key = path ∧ h.holds = true

/-- No proposal with the id has been begun. -/
def Unbegun (id : String) (log : List (Nat × FixProposalEvent)) : Prop :=
  ∀ t r now, (t, .began r now) ∈ log → r.proposalId ≠ id

/-- The record is one that was inserted pending, unexpired at `now` and past a preflight of
the task that does not reject it. -/
def Admitted (log : List (Nat × FixProposalEvent)) (t : Nat) (r : FixProposalRecord)
    (now : Nat) : Prop :=
  ∃ r₀ preflight, (∃ u, (u, .inserted r₀) ∈ log) ∧ r₀.status = .pending ∧ now < r₀.expiresAt ∧
    (t, .preflighted r₀.proposalId preflight) ∈ log ∧ preflight.verdict ≠ .rejected ∧
      r = { r₀ with wave9Preflight := some preflight, status := .applying }

/-- What has to come before an entry. -/
def Warrant (log : List (Nat × FixProposalEvent)) : Nat × FixProposalEvent → Prop
  | (t, .began r now) => Admitted log t r now ∧ Unbegun r.proposalId log
  | (_, .discarded r) => r.status ≠ .applying ∧ Unbegun r.proposalId log
  | _ => True

/-- The invariant of the store. -/
structure Sound (w : StoreWorld) : Prop where
  stored : Stored w
  tasks : Tasks w
  warranted : Justified Warrant w.log

end

/-! ## What each step keeps -/

section
variable {w w' : StoreWorld} {t n : Nat} {path : String} {s : FixProposalStore} {id : String}
  {entries : List FixProposalEvent} {r : FixProposalRecord} {now : Nat}

def FixProposalEvent.isStore : FixProposalEvent → Bool
  | .opened _ _ | .entered _ | .left _ | .dropped _ => false
  | _ => true

/-- A step that has nothing to do with the gates. -/
theorem Tasks.frame (h : Tasks w) (hgates : s.gates = w.state.gates)
    (hentries : ∀ e ∈ entries, e.isStore = true) : Tasks (w.next t s entries) := by
  have hold : ∀ u e, e.isStore = false → ((u, e) ∈ (w.next t s entries).log ↔ (u, e) ∈ w.log) := by
    intro u e he
    rw [mem_next]
    refine or_iff_left fun hnew => ?_
    rw [hentries e hnew.2] at he
    cases he
  refine ⟨?_, ?_, ?_, ?_⟩
  · rw [next_state, hgates]
    exact h.exclusive
  · intro u n path ho
    rw [hold _ _ rfl] at ho
    rw [next_state, hgates]
    refine ⟨(h.opened u n path ho).1, fun u' path' ho' => ?_⟩
    rw [hold _ _ rfl] at ho'
    exact (h.opened u n path ho).2 u' path' ho'
  · intro u n path ho
    rw [hold _ _ rfl] at ho
    rw [next_state, hgates, hold _ _ rfl]
    exact h.held u n path ho
  · rintro u path ⟨hentered, hleft⟩
    rw [hold _ _ rfl] at hentered hleft
    obtain ⟨n, ho, hhandle⟩ := h.inside u path ⟨hentered, hleft⟩
    exact ⟨n, (hold _ _ rfl).mpr ho, by rw [next_state, hgates]; exact hhandle⟩

theorem Over.next (h : Over w id) : Over (w.next t s entries) id :=
  h.imp Shared.Saw.next (Or.imp Shared.Saw.next Shared.Saw.next)

/-- A step that begins nothing: the proposals that it leaves were there before, and those
begun stay or are over. -/
theorem Stored.shrink (h : Stored w) (hcount : ∀ p, s.proposals.count p ≤ w.state.proposals.count p)
    (hget : ∀ id r, s.proposals.get id = some r → w.state.proposals.get id = some r)
    (hissued : ∀ id ∈ w.state.issued, id ∈ s.issued) (hentries : ∀ r now, .began r now ∉ entries)
    (hstays : ∀ r now, w.Saw (.began r now) → w.state.proposals.get r.proposalId = some r →
      s.proposals.get r.proposalId = some r ∨ Over (w.next t s entries) r.proposalId) :
    Stored (w.next t s entries) := by
  refine ⟨?_, fun sessionId => Nat.le_trans (hcount _) (h.sessions sessionId), ?_, ?_⟩
  · have hsize := h.capacity
    rw [size_eq_count] at hsize ⊢
    exact Nat.le_trans (hcount _) hsize
  · intro id r hr
    obtain ⟨hid, hknown, hpending⟩ := h.entry id r (hget id r hr)
    exact ⟨hid, hissued id hknown, fun hp => (hpending hp).next⟩
  · intro r now hr
    have hbegan := (saw_next.mp hr).resolve_right (hentries r now)
    have hbegun := h.begun r now hbegan
    refine ⟨hissued _ hbegun.issued, hbegun.applying, fun r' hr' => hbegun.settled r' (hget _ r' hr'),
      ?_⟩
    rcases hbegun.stays with hstays' | hover
    · exact hstays r now hbegan hstays'
    · exact .inr hover.next

/-- A step that has nothing to do with the proposals. -/
theorem Stored.frame (h : Stored w) (hproposals : s.proposals = w.state.proposals)
    (hissued : s.issued = w.state.issued) (hentries : ∀ r now, .began r now ∉ entries) :
    Stored (w.next t s entries) := by
  refine h.shrink (fun p => ?_) (fun id r => ?_) (fun id => ?_) hentries fun r _ _ hr => .inl ?_
  · exact Nat.le_of_eq (congrArg (fun proposals => proposals.count p) hproposals)
  · rw [hproposals]
    exact fun hr => hr
  · rw [hissued]
    exact fun hid => hid
  · rw [hproposals]
    exact hr

open FixProposalRecord

/-- Reaping leaves what is being applied. -/
theorem Stored.reap (h : Stored w) (now : Nat) :
    Stored (w.next t { w.state with proposals := reapExpiredLocked w.state.proposals now } []) := by
  refine h.shrink (fun p => count_retain_le _ p _) ?_ (fun _ h => h) (by simp) ?_
  · intro id r hr
    rw [reapExpiredLocked, get_retain, filter_eq_some_iff] at hr
    exact hr.1
  · intro r _ hbegan hr
    left
    show (reapExpiredLocked w.state.proposals now).get r.proposalId = some r
    rw [reapExpiredLocked, get_retain, hr, filter_some, if_pos]
    have happlying := (h.begun r _ hbegan).applying
    have hexpire : r.expire now = r := by simp [expire, happlying]
    rw [hexpire, isKept, happlying]

/-- A proposal goes: it had not been begun, or it is over. -/
theorem Stored.erase (h : Stored w) (hentries : ∀ r now, .began r now ∉ entries)
    (hover : ∀ r now, w.Saw (.began r now) → w.state.proposals.get id = some r →
      Over (w.next t { w.state with proposals := w.state.proposals.erase id } entries) id) :
    Stored (w.next t { w.state with proposals := w.state.proposals.erase id } entries) := by
  refine h.shrink (fun p => count_erase_le _ p) ?_ (fun _ h => h) hentries ?_
  · intro id' r hr
    rw [get_erase] at hr
    split at hr
    · cases hr
    · exact hr
  · intro r now hbegan hr
    by_cases hid : r.proposalId = id
    · rw [hid] at hr ⊢
      exact .inr (hover r now hbegan hr)
    · left
      rw [get_erase_of_ne _ hid]
      exact hr

/-- A new proposal. -/
theorem Stored.insert (h : Stored w) (hnew : r.proposalId ∉ w.state.issued)
    (hcapacity : w.state.proposals.size < maxFixProposals)
    (hsession : (w.state.proposals.count fun current =>
      current.sessionId = r.sessionId && current.isOpen) < 2) :
    Stored (w.next t { w.state with
      proposals := w.state.proposals.insert r.proposalId r,
      issued := r.proposalId :: w.state.issued } [.inserted r]) := by
  have habsent : w.state.proposals.get r.proposalId = none := by
    cases hget : w.state.proposals.get r.proposalId with
    | none => rfl
    | some r' => exact absurd (h.entry _ _ hget).2.1 hnew
  refine ⟨?_, fun sessionId => ?_, ?_, ?_⟩
  · have hcount := count_insert_new w.state.proposals (v := r) (fun _ => true) habsent
    rw [← size_eq_count, ← size_eq_count] at hcount
    simp only [Bool.toNat_true] at hcount
    show (w.state.proposals.insert r.proposalId r).size ≤ maxFixProposals
    omega
  · have hold := h.sessions sessionId
    show AssocMap.count _ _ ≤ 2
    rw [next_state, count_insert_new _ _ habsent]
    by_cases hs : r.sessionId = sessionId
    · rw [← hs] at hold ⊢
      have hone : (decide (r.sessionId = r.sessionId) && r.isOpen).toNat ≤ 1 := Bool.toNat_le _
      omega
    · simpa [hs] using hold
  · intro id r' hr'
    rw [next_state, get_insert] at hr'
    split at hr'
    · rename_i heq
      cases hr'
      exact ⟨heq.symm, by rw [heq]; exact mem_cons_self, fun _ => by simp⟩
    · obtain ⟨hid, hknown, hpending⟩ := h.entry id r' hr'
      exact ⟨hid, mem_cons_of_mem _ hknown, fun hp => (hpending hp).next⟩
  · intro r' now hr'
    have hbegan := (saw_next.mp hr').resolve_right (by simp)
    have hbegun := h.begun r' now hbegan
    have hne : r'.proposalId ≠ r.proposalId := fun heq => hnew (by rw [← heq]; exact hbegun.issued)
    refine ⟨mem_cons_of_mem _ hbegun.issued, hbegun.applying, ?_, ?_⟩
    · intro r'' hr''
      rw [next_state, get_insert_of_ne _ hne] at hr''
      exact hbegun.settled r'' hr''
    · rw [next_state, get_insert_of_ne _ hne]
      exact hbegun.stays.imp_right Over.next

/-- The second critical section of `begin_apply` on a proposal that is there: it is marked as
applying, or as expired. -/
theorem Stored.replace {old : FixProposalRecord} (h : Stored w)
    (hget : w.state.proposals.get id = some old) (hid : r.proposalId = old.proposalId)
    (hsession : r.sessionId = old.sessionId) (hopen : r.isOpen = true → old.isOpen = true)
    (hcase : entries = [.lapsed id] ∧ r.status = .invalidated ∨
      (∃ now, entries = [.began r now]) ∧ r.status = .applying ∧ old.status = .pending) :
    Stored (w.next t { w.state with proposals := w.state.proposals.insert id r } entries) := by
  obtain ⟨hold, hknown, hpending⟩ := h.entry id old hget
  have hstatus : r.status ≠ .pending := by
    rcases hcase with ⟨-, hr⟩ | ⟨-, hr, -⟩
    · simp [hr]
    · simp [hr]
  refine ⟨?_, fun sessionId => ?_, ?_, ?_⟩
  · have hsize := h.capacity
    rw [size_eq_count] at hsize ⊢
    exact Nat.le_trans (count_replace_le _ (fun _ => true) hget fun _ => rfl) hsize
  · refine Nat.le_trans (count_replace_le _ _ hget fun hp => ?_) (h.sessions sessionId)
    simp only [Bool.and_eq_true, decide_eq_true_eq] at hp ⊢
    exact ⟨hsession.symm.trans hp.1, hopen hp.2⟩
  · intro id' r' hr'
    rw [next_state, get_insert] at hr'
    split at hr'
    · rename_i heq
      cases hr'
      exact ⟨by rw [heq, hid, hold], by rw [heq]; exact hknown, fun hp => absurd hp hstatus⟩
    · obtain ⟨hid', hknown', hpending'⟩ := h.entry id' r' hr'
      exact ⟨hid', hknown', fun hp => (hpending' hp).next⟩
  · intro r' now' hr'
    have hsettled : (∀ r'', w.state.proposals.get r'.proposalId = some r'' → r''.status ≠ .pending) →
        ∀ r'', (w.state.proposals.insert id r).get r'.proposalId = some r'' →
          r''.status ≠ .pending := by
      intro hbefore r'' hr''
      rw [get_insert] at hr''
      split at hr''
      · cases hr''
        exact hstatus
      · exact hbefore r'' hr''
    rcases saw_next.mp hr' with hbegan | hnow
    · have hbegun := h.begun r' now' hbegan
      refine ⟨hbegun.issued, hbegun.applying, hsettled hbegun.settled, ?_⟩
      rw [next_state, get_insert]
      split
      · rename_i heq
        rcases hcase with ⟨rfl, -⟩ | ⟨-, -, hpend⟩
        · exact .inr (.inr (.inr (by simp [heq])))
        · -- what has been begun is not pending
          exact absurd hpend (hbegun.settled old (by rw [heq]; exact hget))
      · exact hbegun.stays.imp_right Over.next
    · rcases hcase with ⟨rfl, -⟩ | ⟨⟨now, rfl⟩, happlying, -⟩
      · simp at hnow
      · obtain ⟨rfl, -⟩ : r' = r ∧ now' = now := by simpa using hnow
        have hkey : r'.proposalId = id := hid.trans hold
        refine ⟨by rw [hkey]; exact hknown, happlying, ?_, ?_⟩
        · intro r'' hr''
          rw [next_state, hkey, get_insert_self] at hr''
          cases hr''
          exact hstatus
        · rw [next_state, hkey, get_insert_self]
          exact .inl rfl

/-! ### The gates -/

open FixProposalEvent

theorem Tasks.acquire (h : Tasks w) :
    Tasks (w.next t { w.state with gates := w.state.gates.acquire path }
      [.opened w.state.gates.nextHandle path]) := by
  have hgates : (w.next t { w.state with gates := w.state.gates.acquire path }
      [.opened w.state.gates.nextHandle path]).state.gates = w.state.gates.acquire path := rfl
  refine ⟨h.exclusive.acquire, ?_, ?_, ?_⟩
  · intro u n path' ho
    rw [hgates, acquire_nextHandle]
    rcases mem_next.mp ho with ho | ⟨hu, hnew⟩
    · have hlt := (h.opened u n path' ho).1
      refine ⟨Nat.lt_succ_of_lt hlt, fun u' path'' ho' => ?_⟩
      rcases mem_next.mp ho' with ho' | ⟨-, ho'⟩
      · exact (h.opened u n path' ho).2 u' path'' ho'
      · simp only [mem_singleton, opened.injEq] at ho'
        omega
    · simp only [mem_singleton, opened.injEq] at hnew
      obtain ⟨rfl, rfl⟩ := hnew
      refine ⟨Nat.lt_succ_self _, fun u' path'' ho' => ?_⟩
      rcases mem_next.mp ho' with ho' | ⟨hu', hnew'⟩
      · exact absurd (h.opened u' _ path'' ho').1 (Nat.lt_irrefl _)
      · simp only [mem_singleton, opened.injEq] at hnew'
        exact ⟨hu'.trans hu.symm, hnew'.2⟩
  · intro u n path' ho
    rw [hgates]
    rcases mem_next.mp ho with ho | ⟨-, hnew⟩
    · rcases h.held u n path' ho with hdropped | ⟨x, hx, hid⟩
      · exact .inl (mem_next.mpr (.inl hdropped))
      · exact .inr ⟨x, mem_acquire hx, hid⟩
    · simp only [mem_singleton, opened.injEq] at hnew
      obtain ⟨rfl, rfl⟩ := hnew
      exact .inr exists_acquire
  · rintro u path' ⟨hentered, hleft⟩
    rw [hgates]
    have hold : (u, .entered path') ∈ w.log := (mem_next.mp hentered).resolve_right (by simp)
    obtain ⟨n, ho, x, hx, hid⟩ :=
      h.inside u path' ⟨hold, fun hl => hleft (mem_next.mpr (.inl hl))⟩
    exact ⟨n, mem_next.mpr (.inl ho), x, mem_acquire hx, hid⟩

/-- The task has a clone. -/
structure HasGate (t n : Nat) (path : String) (w : StoreWorld) : Prop where
  opened : (t, .opened n path) ∈ w.log
  undropped : (t, .dropped n) ∉ w.log

theorem HasGate.later (h : HasGate t n path w) (hlater : Later t w w') : HasGate t n path w' :=
  ⟨hlater.own.mpr h.opened, fun hd => h.undropped (hlater.own.mp hd)⟩

theorem HasGate.next (h : HasGate t n path w) (hentries : .dropped n ∉ entries) :
    HasGate t n path (w.next t s entries) := by
  refine ⟨mem_next.mpr (.inl h.opened), fun hd => ?_⟩
  rcases mem_next.mp hd with hd | ⟨-, hd⟩
  · exact h.undropped hd
  · exact hentries hd

/-- What the clones' owners have noted is the same after the lock of one has come or gone. -/
theorem Tasks.setHolds {holds : Bool} (h : Tasks w) (hgate : HasGate t n path w)
    (hfree : holds = true → w.state.gates.isFree n = true)
    (hentries : entries = if holds then [.entered path] else [.left path]) :
    Tasks (w.next t { w.state with gates := w.state.gates.setHolds n holds } entries) := by
  have hgates : (w.next t { w.state with gates := w.state.gates.setHolds n holds }
      entries).state.gates = w.state.gates.setHolds n holds := rfl
  have hold : ∀ u e, (∀ path', e ≠ .entered path' ∧ e ≠ .left path') →
      ((u, e) ∈ (w.next t { w.state with gates := w.state.gates.setHolds n holds } entries).log ↔
        (u, e) ∈ w.log) := by
    intro u e he
    rw [mem_next]
    refine or_iff_left fun hnew => ?_
    rw [hentries] at hnew
    cases holds with
    | true => exact (he path).1 (mem_singleton.mp hnew.2)
    | false => exact (he path).2 (mem_singleton.mp hnew.2)
  have hids : ∀ x ∈ w.state.gates.handles, ∃ x' ∈ (w.state.gates.setHolds n holds).handles,
      x'.id = x.id ∧ x'.key = x.key ∧
        (x'.holds = x.holds ∨ x.id = n ∧ x'.holds = holds) := by
    intro x hx
    by_cases hid : x.id = n
    · subst hid
      exact ⟨_, mem_setHolds_self hx, rfl, rfl, .inr ⟨rfl, rfl⟩⟩
    · exact ⟨x, mem_setHolds_of_ne hx hid, rfl, rfl, .inl rfl⟩
  refine ⟨h.exclusive.setHolds hfree, ?_, ?_, ?_⟩
  · intro u m path' ho
    rw [hold _ _ (by simp)] at ho
    refine ⟨(h.opened u m path' ho).1, fun u' path'' ho' => ?_⟩
    rw [hold _ _ (by simp)] at ho'
    exact (h.opened u m path' ho).2 u' path'' ho'
  · intro u m path' ho
    rw [hold _ _ (by simp)] at ho
    rw [hold _ _ (by simp), hgates]
    refine (h.held u m path' ho).imp_right ?_
    rintro ⟨x, hx, hid, hkey⟩
    obtain ⟨x', hx', hid', hkey', -⟩ := hids x hx
    exact ⟨x', hx', hid'.trans hid, hkey'.trans hkey⟩
  · rintro u path' ⟨hentered, hleft⟩
    rw [hgates]
    have hnotleft : (u, .left path') ∉ w.log := fun hl => hleft (mem_next.mpr (.inl hl))
    rcases mem_next.mp hentered with hentered | ⟨rfl, hnow⟩
    · obtain ⟨m, ho, x, hx, hid, hkey, hholds⟩ := h.inside u path' ⟨hentered, hnotleft⟩
      obtain ⟨x', hx', hid', hkey', hcase⟩ := hids x hx
      refine ⟨m, (hold _ _ (by simp)).mpr ho, x', hx', hid'.trans hid, hkey'.trans hkey, ?_⟩
      rcases hcase with hsame | ⟨hn, hset⟩
      · exact hsame.trans hholds
      · rw [hset]
        by_contra hfalse
        -- the task gives back the lock that it has, and is inside no more
        obtain ⟨rfl, rfl⟩ := (h.opened u m path' ho).2 t path
          (by rw [← hid, hn]; exact hgate.opened)
        exact hleft (mem_next.mpr (.inr ⟨rfl, by rw [hentries, if_neg hfalse]; simp⟩))
    · cases holds with
      | false => simp [hentries] at hnow
      | true =>
        obtain rfl : path' = path := by simpa [hentries] using hnow
        obtain ⟨x, hx, hid, hkey⟩ := (h.held u n path' hgate.opened).resolve_left hgate.undropped
        subst hid
        exact ⟨_, (hold _ _ (by simp)).mpr hgate.opened, _, mem_setHolds_self hx, rfl,
          hkey, rfl⟩

theorem Tasks.release (h : Tasks w) (hgate : HasGate t n path w)
    (houtside : ¬ Inside t path w.log) :
    Tasks (w.next t { w.state with gates := w.state.gates.release n } [.dropped n]) := by
  have hold : ∀ u e, e ≠ .dropped n →
      ((u, e) ∈ (w.next t { w.state with gates := w.state.gates.release n } [.dropped n]).log ↔
        (u, e) ∈ w.log) := by
    intro u e he
    rw [mem_next]
    exact or_iff_left fun hnew => he (mem_singleton.mp hnew.2)
  have hown : ∀ u path', (u, .opened n path') ∈ w.log → u = t ∧ path' = path :=
    fun u path' ho => (h.opened t n path hgate.opened).2 u path' ho
  refine ⟨h.exclusive.release, ?_, ?_, ?_⟩
  · intro u m path' ho
    rw [hold _ _ (by simp)] at ho
    refine ⟨(h.opened u m path' ho).1, fun u' path'' ho' => ?_⟩
    rw [hold _ _ (by simp)] at ho'
    exact (h.opened u m path' ho).2 u' path'' ho'
  · intro u m path' ho
    rw [hold _ _ (by simp)] at ho
    by_cases hm : m = n
    · subst hm
      obtain ⟨rfl, -⟩ := hown u path' ho
      exact .inl (mem_next.mpr (.inr ⟨rfl, mem_singleton.mpr rfl⟩))
    · rcases h.held u m path' ho with hdropped | ⟨x, hx, hid, hkey⟩
      · exact .inl (mem_next.mpr (.inl hdropped))
      · exact .inr ⟨x, mem_release hx (by rw [hid]; exact hm), hid, hkey⟩
  · rintro u path' ⟨hentered, hleft⟩
    rw [hold _ _ (by simp)] at hentered hleft
    obtain ⟨m, ho, x, hx, hid, hrest⟩ := h.inside u path' ⟨hentered, hleft⟩
    have hm : m ≠ n := by
      rintro rfl
      obtain ⟨rfl, rfl⟩ := hown u path' ho
      exact houtside ⟨hentered, hleft⟩
    exact ⟨m, (hold _ _ (by simp)).mpr ho, x, mem_release hx (by rw [hid]; exact hm),
      hid, hrest⟩

/-! ### The calls -/

section
variable {α : Type} {ok : α → StoreWorld → Prop} {err : String → StoreWorld → Prop}

theorem justified_next (h : Justified Warrant w.log)
    (hentries : entries = [] ∨ ∃ e, entries = [e] ∧ Warrant w.log (t, e)) :
    Justified Warrant (w.next t s entries).log := by
  rcases hentries with rfl | ⟨e, rfl, he⟩
  · show Justified Warrant (w.log ++ [])
    rw [append_nil]
    exact h
  · exact h.snoc he

/-- After reaping there are only pending proposals and those being applied. -/
theorem isOpen_of_reaped {proposals : Proposals}
    (hget : (reapExpiredLocked proposals now).get id = some r) : r.isOpen = true := by
  rw [reapExpiredLocked, get_retain, filter_eq_some_iff] at hget
  have hkept := hget.2
  unfold expire at hkept
  split at hkept
  · simp [isKept] at hkept
  · cases hstatus : r.status with
    | pending => simp [isOpen, hstatus]
    | applying => simp [isOpen, hstatus]
    | applied => simp [isKept, hstatus] at hkept
    | discarded => simp [isKept, hstatus] at hkept
    | invalidated => simp [isKept, hstatus] at hkept

/-- Of the critical sections: each acts on a store that has been reaped. -/
theorem meets_withProposals {f : Proposals → Except String α × Proposals × List FixProposalEvent}
    (h : ∀ w' result proposals entries, Later t w w' → Sound w' →
      (∀ id r, w'.state.proposals.get id = some r → r.isOpen = true) →
      f w'.state.proposals = (result, proposals, entries) →
      Sound (w'.next t { w'.state with proposals } entries) ∧
        Meets Sound t ok err (ofExcept result)
          (w'.next t { w'.state with proposals } entries)) :
    Meets Sound t ok err (locked fun s => s.withProposals now f) w := by
  refine meets_locked fun w' result s entries hlater hw hf => ?_
  have hreaped : Sound (w'.next t { w'.state with
      proposals := reapExpiredLocked w'.state.proposals now } []) :=
    ⟨hw.stored.reap now, hw.tasks.frame rfl (by simp), justified_next hw.warranted (.inl rfl)⟩
  have hlater' : Later t w (w'.next t { w'.state with
      proposals := reapExpiredLocked w'.state.proposals now } []) := by
    obtain ⟨more, hlog, hothers⟩ := hlater
    exact ⟨more, (append_nil _).trans hlog, hothers⟩
  cases hf
  have hnext := h _ _ _ _ hlater' hreaped (fun _ _ => isOpen_of_reaped) rfl
  simpa [Shared.next, FixProposalStore.withProposals] using hnext

/-- A section that leaves the reaped store as it is. -/
theorem Sound.look (h : Sound w) :
    Sound (w.next t { w.state with proposals := w.state.proposals } []) := by
  rw [show ({ w.state with proposals := w.state.proposals } : FixProposalStore) = w.state from rfl,
    next_nothing]
  exact h

theorem meets_reapExpired : Goes Sound t (reapExpired now) w := by
  refine meets_withProposals fun w' result proposals entries _ hw _ hf => ?_
  cases hf
  exact ⟨hw.look, trivial⟩

theorem meets_insert {proposal : FixProposalRecord} : Goes Sound t (insert proposal now) w := by
  refine meets_await fun w' result s entries _ hw hready hf => ?_
  have hnew : proposal.proposalId ∉ w'.state.issued := by simpa using hready
  have hreaped := hw.stored.reap (t := t) now
  simp only [FixProposalStore.withProposals] at hf
  have hrefused : ∀ s', s' = { w'.state with
        proposals := reapExpiredLocked w'.state.proposals now,
        issued := proposal.proposalId :: w'.state.issued } → Sound (w'.next t s' []) := by
    rintro s' rfl
    refine ⟨?_, hw.tasks.frame rfl (by simp), justified_next hw.warranted (.inl rfl)⟩
    have hgrown := @Stored.shrink _ t { w'.state with
        proposals := reapExpiredLocked w'.state.proposals now,
        issued := proposal.proposalId :: w'.state.issued } [] hreaped
      (fun p => Nat.le_refl _) (fun _ _ h => h) (fun id hid => mem_cons_of_mem _ hid) (by simp)
      fun _ _ _ hr => .inl hr
    simpa [Shared.next] using hgrown
  split at hf
  · cases hf
    exact ⟨hrefused _ rfl, trivial⟩
  · rename_i hroom
    split at hf
    · cases hf
      exact ⟨hrefused _ rfl, trivial⟩
    · rename_i hsession
      cases hf
      refine ⟨⟨?_, hw.tasks.frame rfl (by simp [isStore]),
        justified_next hw.warranted (.inr ⟨_, rfl, trivial⟩)⟩, trivial⟩
      have hinserted := hreaped.insert (t := t) hnew (Nat.lt_of_not_le hroom)
        (Nat.lt_of_not_le hsession)
      simpa [Shared.next] using hinserted

/-- What a task knows of itself and keeps while it works on the proposals. -/
def Stable (t : Nat) (P : StoreWorld → Prop) : Prop :=
  ∀ w w' s entries, P w → Later t w w' → (∀ e ∈ entries, e.isStore = true) →
    P (w'.next t s entries)

variable {P : StoreWorld → Prop} {proposalId : String}

theorem meets_completeApply (hP : Stable t P) (h : P w) :
    Meets Sound t (fun _ => P) (fun _ => P) (completeApply proposalId now) w := by
  refine meets_withProposals fun w' result proposals entries hlater hw _ hf => ?_
  split at hf
  · cases hf
    exact ⟨hw.look, hP w w' _ _ h hlater (by simp)⟩
  · split at hf
    · cases hf
      exact ⟨hw.look, hP w w' _ _ h hlater (by simp)⟩
    · cases hf
      have hstore : ∀ e ∈ [completed proposalId], e.isStore = true := by
        simp [isStore]
      exact ⟨⟨hw.stored.erase (by simp) fun _ _ _ _ => .inl (by simp), hw.tasks.frame rfl hstore,
        justified_next hw.warranted (.inr ⟨_, rfl, trivial⟩)⟩, hP w w' _ _ h hlater hstore⟩

theorem meets_invalidate (hP : Stable t P) (h : P w) :
    Meets Sound t (fun _ => P) (fun _ => P) (invalidate proposalId now) w := by
  refine meets_withProposals fun w' result proposals entries hlater hw _ hf => ?_
  cases hf
  have hstore : ∀ e ∈ [invalidated proposalId], e.isStore = true := by
    simp [isStore]
  exact ⟨⟨hw.stored.erase (by simp) fun _ _ _ _ => .inr (.inl (by simp)), hw.tasks.frame rfl hstore,
    justified_next hw.warranted (.inr ⟨_, rfl, trivial⟩)⟩, hP w w' _ _ h hlater hstore⟩

/-- What is pending has not been begun. -/
theorem Stored.unbegun (h : Stored w) (hget : w.state.proposals.get id = some r)
    (hpending : r.status = .pending) : Unbegun id w.log := by
  rintro u r' now' hbegan rfl
  exact (h.begun r' now' ⟨u, hbegan⟩).settled r hget hpending

/-- A discard: what it takes out of the store is pending. -/
theorem meets_discard : Goes Sound t (discard proposalId now) w := by
  refine meets_withProposals fun w' result proposals entries _ hw hopen hf => ?_
  split at hf
  · rename_i hnone
    cases hf
    refine ⟨⟨hw.stored.erase (by simp) fun r _ _ hr => ?_, hw.tasks.frame rfl (by simp),
      justified_next hw.warranted (.inl rfl)⟩, trivial⟩
    rw [hnone] at hr
    cases hr
  · rename_i proposal hget
    split at hf
    · cases hf
      exact ⟨hw.look, trivial⟩
    · rename_i hnot
      cases hf
      have hpending : proposal.status = .pending := by
        have hcase := hopen _ _ hget
        simpa [isOpen, hnot] using hcase
      have hid := (hw.stored.entry _ _ hget).1
      have hunbegun : Unbegun proposalId w'.log := hw.stored.unbegun hget hpending
      refine ⟨⟨hw.stored.erase (by simp) fun r now hbegan hr => ?_,
        hw.tasks.frame rfl (by simp [isStore]),
        justified_next hw.warranted (.inr ⟨_, rfl, hnot, by rw [hid]; exact hunbegun⟩)⟩, trivial⟩
      obtain ⟨u, hu⟩ := hbegan
      exact absurd (hw.stored.entry _ _ hr).1 (hunbegun u r now hu)

/-! ### Beginning to apply -/

theorem meets_lookPending {a : BeginAnswers} (hP : Stable t P) (h : P w) :
    Meets Sound t (fun _ => P) (fun _ => P) (lookPending proposalId a) w := by
  refine meets_withProposals fun w' result proposals entries hlater hw _ hf => ?_
  have hlook : P (w'.next t { w'.state with proposals := w'.state.proposals } []) :=
    hP w w' _ _ h hlater (by simp)
  split at hf
  · cases hf
    exact ⟨hw.look, hlook⟩
  · split at hf
    · cases hf
      exact ⟨hw.look, hlook⟩
    · split at hf
      · cases hf
        exact ⟨hw.look, hlook⟩
      · cases hf
        exact ⟨hw.look, hlook⟩

/-- The second critical section, after a preflight of the task that does not reject. -/
theorem meets_markApplying {a : BeginAnswers} {preflight : Preflight} (hP : Stable t P) (h : P w)
    (hpreflight : (t, .preflighted proposalId preflight) ∈ w.log)
    (hverdict : preflight.verdict ≠ .rejected) :
    Meets Sound t (fun _ => P) (fun _ => P) (markApplying proposalId preflight a) w := by
  refine meets_withProposals fun w' result proposals entries hlater hw _ hf => ?_
  have hlook : P (w'.next t { w'.state with proposals := w'.state.proposals } []) :=
    hP w w' _ _ h hlater (by simp)
  split at hf
  · cases hf
    exact ⟨hw.look, hlook⟩
  · rename_i proposal hget
    obtain ⟨hid, -, hinserted⟩ := hw.stored.entry _ _ hget
    split at hf
    · cases hf
      have hstore : ∀ e ∈ [lapsed proposalId], e.isStore = true := by
        simp [isStore]
      exact ⟨⟨hw.stored.replace hget rfl rfl (by simp [isOpen])
          (.inl ⟨rfl, rfl⟩), hw.tasks.frame rfl hstore,
        justified_next hw.warranted (.inr ⟨_, rfl, trivial⟩)⟩, hP w w' _ _ h hlater hstore⟩
    · rename_i hunexpired
      split at hf
      · cases hf
        exact ⟨hw.look, hlook⟩
      · rename_i hpending
        rw [not_not] at hpending
        cases hf
        have hstore : ∀ e ∈ [FixProposalEvent.began { proposal with
            wave9Preflight := some preflight, status := .applying } a.check₂],
            e.isStore = true := by simp [isStore]
        refine ⟨⟨hw.stored.replace hget rfl rfl (fun _ => by simp [isOpen, hpending])
            (.inr ⟨⟨_, rfl⟩, rfl, hpending⟩), hw.tasks.frame rfl hstore,
          justified_next hw.warranted (.inr ⟨_, rfl, ?_, ?_⟩)⟩, hP w w' _ _ h hlater hstore⟩
        · exact ⟨proposal, preflight, hinserted hpending, hpending, Nat.lt_of_not_le hunexpired,
            by rw [hid]; exact hlater.own.mpr hpreflight, hverdict, rfl⟩
        · have hunbegun := hw.stored.unbegun hget hpending
          rwa [← hid] at hunbegun

theorem meets_beginApply {a : BeginAnswers} (hP : Stable t P) (h : P w) :
    Meets Sound t (fun _ => P) (fun _ => P) (beginApply proposalId a) w := by
  refine meets_bind.mpr ((meets_lookPending hP h).mono ?_ fun _ _ h => h)
  rintro pending w₁ h₁
  have hrest : ∀ preflight, Meets Sound t (fun _ => P) (fun _ => P) (do
      tell (.preflighted proposalId preflight)
      reject (preflight.verdict = .rejected)
        "Wave 9 candidate preflight rejected the pending Fix proposal"
      checkRevision preflight a
      markApplying proposalId preflight a) w₁ := by
    intro preflight
    have hstore : ∀ e ∈ [preflighted proposalId preflight], e.isStore = true := by
      simp [isStore]
    have htell : Meets Sound t (fun _ v => P v ∧ (t, .preflighted proposalId preflight) ∈ v.log)
        (fun _ => P) (tell (.preflighted proposalId preflight) : StoreCall Unit) w₁ := by
      refine meets_tell fun w' hlater hw => ⟨⟨?_, hw.tasks.frame rfl hstore,
        justified_next hw.warranted (.inr ⟨_, rfl, trivial⟩)⟩, hP w₁ w' _ _ h₁ hlater hstore,
        mem_next.mpr (.inr ⟨rfl, mem_singleton.mpr rfl⟩)⟩
      exact hw.stored.frame rfl rfl (by simp)
    refine meets_bind.mpr (htell.mono ?_ fun _ _ h => h)
    rintro _ w₂ ⟨h₂, htold⟩
    simp only [meets_bind, meets_reject]
    refine ⟨fun _ => h₂, fun hverdict => ?_⟩
    have hmark := meets_markApplying (a := a) hP h₂ htold hverdict
    unfold checkRevision
    cases preflight.baseRevision with
    | none => exact hmark
    | some preflightRevision =>
      cases a.currentRevision with
      | error e => exact h₂
      | ok currentRevision =>
        refine meets_bind.mpr (meets_reject.mpr ⟨fun _ => h₂, fun _ => hmark⟩)
  cases a.preflight pending with
  | error e => exact h₁
  | ok preflight => exact hrest preflight

/-! ### Under the gate -/

theorem HasGate.stable : Stable t (HasGate t n path) := by
  intro w w' s entries h hlater hentries
  refine (h.later hlater).next fun hd => ?_
  cases hentries _ hd

/-- The task has not locked a gate nor dropped a clone. -/
structure Outside (t : Nat) (w : StoreWorld) : Prop where
  unentered : ∀ path, (t, .entered path) ∉ w.log
  undropped : ∀ n, (t, .dropped n) ∉ w.log

theorem Outside.stable : Stable t (Outside t) := by
  intro w w' s entries h hlater hentries
  constructor
  · intro path he
    rcases mem_next.mp he with he | ⟨-, he⟩
    · exact h.unentered path (hlater.own.mp he)
    · cases hentries _ he
  · intro n he
    rcases mem_next.mp he with he | ⟨-, he⟩
    · exact h.undropped n (hlater.own.mp he)
    · cases hentries _ he

theorem meets_applyGateFor (h : Outside t w) :
    Meets Sound t (fun n v => HasGate t n path v ∧ ∀ path', (t, .entered path') ∉ v.log)
      (fun _ _ => True) (applyGateFor path) w := by
  refine meets_update fun w' hlater hw => ?_
  refine ⟨⟨hw.stored.frame rfl rfl (by simp), hw.tasks.acquire,
    justified_next hw.warranted (.inr ⟨_, rfl, trivial⟩)⟩, ⟨?_, ?_⟩, ?_⟩
  · exact mem_next.mpr (.inr ⟨rfl, mem_singleton.mpr rfl⟩)
  · intro hd
    rcases mem_next.mp hd with hd | ⟨-, hd⟩
    · exact h.undropped _ (hlater.own.mp hd)
    · simp at hd
  · intro path' he
    rcases mem_next.mp he with he | ⟨-, he⟩
    · exact h.unentered path' (hlater.own.mp he)
    · simp at he

theorem meets_lockGate (h : HasGate t n path w) :
    Meets Sound t (fun _ => HasGate t n path) (fun _ _ => True) (lockGate n path) w := by
  refine meets_await fun w' result s entries hlater hw hready hf => ?_
  cases hf
  have hgate := h.later hlater
  exact ⟨⟨hw.stored.frame rfl rfl (by simp), hw.tasks.setHolds hgate (fun _ => hready) rfl,
    justified_next hw.warranted (.inr ⟨_, rfl, trivial⟩)⟩, hgate.next (by simp)⟩

theorem meets_unlockGate (h : HasGate t n path w) :
    Meets Sound t (fun _ v => HasGate t n path v ∧ (t, .left path) ∈ v.log) (fun _ _ => True)
      (unlockGate n path) w := by
  refine meets_update fun w' hlater hw => ?_
  have hgate := h.later hlater
  exact ⟨⟨hw.stored.frame rfl rfl (by simp), hw.tasks.setHolds hgate (fun hf => nomatch hf) rfl,
    justified_next hw.warranted (.inr ⟨_, rfl, trivial⟩)⟩, hgate.next (by simp),
      mem_next.mpr (.inr ⟨rfl, mem_singleton.mpr rfl⟩)⟩

theorem meets_dropGate (h : HasGate t n path w)
    (houtside : (t, .entered path) ∉ w.log ∨ (t, .left path) ∈ w.log) :
    Goes Sound t (dropGate n) w := by
  refine meets_update fun w' hlater hw => ⟨?_, trivial⟩
  refine ⟨hw.stored.frame rfl rfl (by simp), hw.tasks.release (h.later hlater) ?_,
    justified_next hw.warranted (.inr ⟨_, rfl, trivial⟩)⟩
  rintro ⟨hentered, hleft⟩
  rcases houtside with hnot | hgone
  · exact hnot (hlater.own.mp hentered)
  · exact hleft (hlater.own.mpr hgone)

/-- What is done under the gate is done on the proposals. -/
theorem meets_underGate {waits : Bool} {body : StoreCall Unit} (h : Outside t w)
    (hbody : ∀ P v, Stable t P → P v → Meets Sound t (fun _ => P) (fun _ => P) body v) :
    Goes Sound t (underGate path waits body) w := by
  refine (meets_applyGateFor h).goes_bind ?_
  rintro n w₁ ⟨h₁, houtside⟩
  cases waits with
  | false => exact meets_dropGate h₁ (.inl (houtside path))
  | true =>
    refine (meets_lockGate h₁).goes_bind ?_
    rintro - w₂ h₂
    have hattempt : Meets Sound t (fun _ => HasGate t n path) (fun _ _ => True)
        (body.attempt : StoreCall (Except String Unit)) w₂ :=
      meets_attempt.mpr (hbody _ w₂ HasGate.stable h₂)
    refine hattempt.goes_bind fun answer w₃ h₃ => ?_
    refine (meets_unlockGate h₃).goes_bind ?_
    rintro - w₄ ⟨h₄, hleft⟩
    refine (meets_dropGate h₄ (.inr hleft)).goes_bind fun _ _ _ => ?_
    cases answer with
    | ok a => trivial
    | error e => trivial

theorem meets_settleApply {fate : ApplyFate} (hP : Stable t P) (h : P w) :
    Meets Sound t (fun _ => P) (fun _ => P) (settleApply proposalId now fate) w := by
  cases fate with
  | cancelledWaiting => exact h
  | cancelledHolding => exact h
  | ended result =>
    cases result with
    | ok a => exact meets_completeApply hP h
    | error e => exact meets_bind.mpr ((meets_invalidate hP h).mono (fun _ _ h => h) fun _ _ h => h)

/-- **Each request by itself.** -/
theorem proposalSystem_keeps : proposalSystem.KeepsNew Sound := by
  intro w t request _ hnew _
  have houtside : Outside t w :=
    ⟨fun path he => hnew _ he rfl, fun n he => hnew _ he rfl⟩
  have htrue : Stable t fun _ => True := fun _ _ _ _ _ _ _ => trivial
  have hbody : Goes Sound t request.body w := by
    cases request with
    | insert proposal now => exact meets_insert
    | beginApply id a => exact (meets_beginApply htrue trivial).goes_bind fun _ _ _ => trivial
    | completeApply id now => exact meets_completeApply htrue trivial
    | invalidate id now => exact meets_invalidate htrue trivial
    | discard id now => exact meets_discard
    | reapExpired now => exact meets_reapExpired
    | underGate path waits => exact meets_underGate houtside fun _ _ _ h => h
    | applyFixProposal id a fate now =>
      refine ((meets_beginApply Outside.stable houtside).mono (fun _ _ h => h)
        fun _ _ _ => trivial).goes_bind fun proposal w₁ h₁ => ?_
      exact meets_underGate h₁ fun _ _ hP h => meets_settleApply hP h
  exact hbody.attempt.goes_bind fun _ _ _ => trivial

end
end

/-! ## Every run -/

section
variable {c : Config FixProposalStore FixProposalEvent} {tr : List (Move FixProposalRequest)}

theorem sound_new : Sound { state := FixProposalStore.new, log := [] } := by
  refine ⟨⟨Nat.zero_le _, fun _ => Nat.zero_le _, ?_, ?_⟩,
    ⟨exclusive_empty, by simp, by simp, ?_⟩, Justified.nil _⟩
  · intro id r hr
    cases hr
  · rintro r now ⟨u, hu⟩
    cases hu
  · rintro u path ⟨hentered, -⟩
    cases hentered

/-- The entry is a proposal's begun application. -/
def FixProposalEvent.begins (id : String) : FixProposalEvent → Bool
  | .began r _ => r.proposalId = id
  | _ => false

/-- **Proposals are applied at most once and exclusively.**  In every run of any requests:
a proposal is begun once at most; when it is begun it was inserted pending, is unexpired and
the same task's preflight has not rejected it; once begun it stays in the store as it was
begun until it is over, and what a discard takes out is neither applying nor was ever begun;
the store and each session keep their bounds; and of the tasks one at most is between locking
and leaving the gate of a file. -/
theorem proposals_exclusive
    (hrun : Run proposalSystem.Step (Config.start FixProposalStore.new) tr c) :
    (∀ id, (c.log.countP fun e => e.2.begins id) ≤ 1) ∧
      (∀ before t r now after, c.log = before ++ (t, FixProposalEvent.began r now) :: after →
        Admitted before t r now) ∧
      (∀ r now, c.Saw (.began r now) →
        c.state.proposals.get r.proposalId = some r ∧ r.status = .applying ∨
          Over c.toShared r.proposalId) ∧
      (∀ before t r after, c.log = before ++ (t, FixProposalEvent.discarded r) :: after →
        r.status ≠ .applying ∧ Unbegun r.proposalId before) ∧
      c.state.proposals.size ≤ maxFixProposals ∧
      (∀ sessionId, (c.state.proposals.count fun r =>
        r.sessionId = sessionId && r.isOpen) ≤ 2) ∧
      ∀ t t' path, Inside t path c.log → Inside t' path c.log → t = t' := by
  have hsound := ((kept_start sound_new).run_new proposalSystem_keeps hrun).invariant
  refine ⟨?_, ?_, ?_, ?_, hsound.stored.capacity, hsound.stored.sessions, ?_⟩
  · intro id
    refine hsound.warranted.countP_le_one ?_
    rintro log ⟨t, e⟩ hwarrant hbegins ⟨u, x⟩ hx
    by_contra hboth
    obtain ⟨r, now, rfl⟩ : ∃ r now, e = .began r now := by
      cases e <;> simp [FixProposalEvent.begins] at hbegins ⊢
    obtain ⟨r', now', rfl⟩ : ∃ r now, x = .began r now := by
      cases x <;> simp [FixProposalEvent.begins] at hboth ⊢
    simp only [FixProposalEvent.begins, decide_eq_true_eq, Bool.not_eq_false] at hbegins hboth
    exact hwarrant.2 u r' now' hx (hboth.trans hbegins.symm)
  · intro before t r now after hlog
    exact (hsound.warranted _ _ _ hlog).1
  · intro r now hbegan
    have hbegun := hsound.stored.begun r now hbegan
    exact hbegun.stays.imp_left fun hget => ⟨hget, hbegun.applying⟩
  · intro before t r after hlog
    exact hsound.warranted _ _ _ hlog
  · intro t t' path hinside hinside'
    obtain ⟨n, ho, x, hx, hid, hkey, hholds⟩ := hsound.tasks.inside t path hinside
    obtain ⟨n', ho', x', hx', hid', hkey', hholds'⟩ := hsound.tasks.inside t' path hinside'
    have hsame := hsound.tasks.exclusive.eq_of_key hx hx' hholds hholds' (hkey.trans hkey'.symm)
    have hn : n = n' := by rw [← hid, ← hid', hsame]
    rw [← hn] at ho'
    exact ((hsound.tasks.opened t' n path ho').2 t path ho).1

/-! ## Two proposals for one file -/

def sampleProposal : FixProposalRecord where
  proposalId := "fix:1"
  sessionId := "session:1"
  canonicalFile := "/project/app.tsx"
  expiresAt := 300
  status := .pending
  wave9Preflight := none

def samplePreflight : Preflight := { baseRevision := none, verdict := .inconclusive }

def sampleAnswers : BeginAnswers where
  reap₁ := 10
  check₁ := 10
  preflight := fun _ => .ok samplePreflight
  currentRevision := .error "no revision"
  reap₂ := 20
  check₂ := 20

def sampleApplying : FixProposalRecord :=
  { sampleProposal with wave9Preflight := some samplePreflight, status := .applying }

def sampleSecond : FixProposalRecord := { sampleProposal with proposalId := "fix:2" }

/-- Task `t`, its first accesses. -/
def sampleTask (t : Nat) (request : FixProposalRequest) (accesses : Nat) :
    List (Move FixProposalRequest) :=
  .begin t request :: List.replicate accesses (.advance t)

/-- Both proposals are inserted; the second is to be applied while the first is, and waits at
the gate of their file until the first is completed. -/
def sampleMoves : List (Move FixProposalRequest) :=
  sampleTask 0 (.insert sampleProposal 0) 1 ++ sampleTask 1 (.insert sampleSecond 0) 1 ++
    sampleTask 2 (.applyFixProposal "fix:1" sampleAnswers (.ended (.ok ())) 30) 5 ++
    sampleTask 3 (.applyFixProposal "fix:2" sampleAnswers (.ended (.ok ())) 30) 4 ++
    List.replicate 3 (.advance 2) ++ List.replicate 4 (.advance 3)

theorem proposals_exclusive_sample :
    ∃ c, Run proposalSystem.Step (Config.start FixProposalStore.new) sampleMoves c ∧
      Admitted [(0, .inserted sampleProposal), (1, .inserted sampleSecond),
        (2, .preflighted "fix:1" samplePreflight)] 2 sampleApplying 20 ∧
      (∀ id, c.log.countP (fun e => e.2.begins id) ≤ 1) ∧
      ∀ t t' path, Inside t path c.log → Inside t' path c.log → t = t' := by
  have hlog : (perform proposalSystem.act (Config.start FixProposalStore.new) sampleMoves).map
      (fun c => c.log) = some (([(0, .inserted sampleProposal), (1, .inserted sampleSecond),
        (2, .preflighted "fix:1" samplePreflight)] : List (Nat × FixProposalEvent)) ++
          ((2, .began sampleApplying 20) ::
            [(2, .opened 0 "/project/app.tsx"), (2, .entered "/project/app.tsx"),
              (3, .preflighted "fix:2" samplePreflight),
              (3, .began { sampleApplying with proposalId := "fix:2" } 20),
              (3, .opened 1 "/project/app.tsx"), (2, .completed "fix:1"),
              (2, .left "/project/app.tsx"), (2, .dropped 0), (3, .entered "/project/app.tsx"),
              (3, .completed "fix:2"), (3, .left "/project/app.tsx"), (3, .dropped 1)] :
            List (Nat × FixProposalEvent))) := by
    decide +kernel
  obtain ⟨c, hc, hlog⟩ := Option.map_eq_some_iff.mp hlog
  have h := proposals_exclusive (run_of_perform hc)
  exact ⟨c, run_of_perform hc, h.2.1 _ _ _ _ _ hlog, h.1, h.2.2.2.2.2.2⟩

end
end Localview.FixProposals
