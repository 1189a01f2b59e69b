import Localview.VerifyDurability

/-! # Trusted Verify records over runs

The requests of the store with what they acknowledge, a crash in the midst of any of them
with the load after it, and the invariant that relates memory, files and what was
acknowledged.  Memory may forget a record that has expired while its files are still there;
what holds it together is that the persisted expiry is never the later one.
-/
namespace Localview.TrustedVerify
open Interleaving Interleaving.Call EarlyReturn StateRun List Option Bool AssocMap

section
variable {S V W : Type}

/-! ## Requests -/

/-- A call of the store. -/
inductive Request (S V W : Type)
  | insert (record : VerificationRecord S V W) (o : PersistOutcomes)
  | beginVerify (id : String)
  | releaseRetryable (id : String)
  | complete (id : String) (o : ConsumeOutcomes)
  | discard (id : String) (o : ConsumeOutcomes)
  | reapExpired

def Request.call (codec : RecoveryCodec S V W) (t : Readings) (memory : Records S V W) :
    Request S V W → StoreCall (Answered S V W)
  | .insert record o => TrustedVerify.insert codec record o t memory
  | .beginVerify id => TrustedVerify.beginVerify id t memory
  | .releaseRetryable id => TrustedVerify.releaseRetryable id t memory
  | .complete id o => TrustedVerify.complete codec id o t memory
  | .discard id o => discardVerification codec id o t memory
  | .reapExpired => return (.ok (), reapExpiredLocked memory t.reap)

def Request.inserted (t : Readings) : Request S V W → Option (Kept S V W)
  | .insert record _ => some ⟨record, t.wall, t.now⟩
  | _ => none

def Request.consumed : Request S V W → Option String
  | .complete id _ | .discard id _ => some id
  | _ => none

/-- The store with its files; `ledger` has what was acknowledged, `issued` the ids that were
inserted and `retired` those of them whose completion or discard was acknowledged. -/
structure VerifyState (S V W : Type) where
  disk : Disk
  memory : Records S V W
  now : Nat
  ledger : String → Option (Kept S V W)
  (issued retired : List String)

/-- A root without files. -/
def VerifyState.start (now : Nat) : VerifyState S V W :=
  ⟨fun _ => none, AssocMap.empty, now, fun _ => none, [], []⟩

/-- Ids are fresh, the clock goes on, and a record inserted can be persisted. -/
structure VerifyState.Admits (codec : RecoveryCodec S V W) (s : VerifyState S V W)
    (q : Request S V W) (t : Readings) : Prop where
  clock : s.now ≤ t.reap
  fresh : ∀ k ∈ q.inserted t, k.id ∉ s.issued
  persistable : ∀ k ∈ q.inserted t, k.Persistable codec

section
variable (s : VerifyState S V W) (q : Request S V W) (t : Readings)

/-- The ids issued once the request has begun. -/
def VerifyState.issuedBy : List String := ((q.inserted t).map Kept.id).toList ++ s.issued

def Request.noting (q : Request S V W) (t : Readings) (ledger : String → Option (Kept S V W)) :
    String → Option (Kept S V W) := fun id =>
  ((q.inserted t).filter fun k => k.id = id).or (ledger id)

def Request.acknowledge (q : Request S V W) (t : Readings) (ledger : String → Option (Kept S V W)) :
    String → Option (Kept S V W) := fun id =>
  if q.consumed = some id then none else q.noting t ledger id

/-- The state that an acknowledged request leaves. -/
def VerifyState.acknowledged (memory : Records S V W) (disk : Disk) : VerifyState S V W :=
  { disk, memory, now := t.now
    ledger := q.acknowledge t s.ledger
    issued := s.issuedBy q t
    retired := (q.consumed.filter fun id => id ∈ s.issued).toList ++ s.retired }

/-- The state that a refused request leaves. -/
def VerifyState.refused (memory : Records S V W) (disk : Disk) : VerifyState S V W :=
  { s with disk, memory, now := t.now, issued := s.issuedBy q t }

def VerifyState.after (codec : RecoveryCodec S V W) (s : VerifyState S V W) (q : Request S V W)
    (t : Readings) : VerifyState S V W :=
  match (q.call codec t s.memory).solo s.disk with
  | (.ok (.ok (), memory), disk) => s.acknowledged q t memory disk
  | (.ok (.error _, memory), disk) => s.refused q t memory disk
  | (.error e, _) => nomatch e

/-- The state after a crash in the midst of a request, once `load_records` has answered. -/
def VerifyState.recovered
    (a : LoadAnswers) (records : Records S V W) (disk : Disk) : VerifyState S V W :=
  { disk, memory := records, now := a.now
    ledger := fun id => if (records.get id).isSome = true then q.noting t s.ledger id else none
    issued := s.issuedBy q t, retired := s.retired }

end

/-- A call, or a crash inside one. -/
inductive VerifyEvent (S V W : Type)
  | call (q : Request S V W) (t : Readings)
  | crash (q : Request S V W) (t : Readings) (n : Nat) (a : LoadAnswers)

/-- One call, or a crash and the load after it. -/
inductive VerifyStep (codec : RecoveryCodec S V W) :
    VerifyState S V W → VerifyEvent S V W → VerifyState S V W → Prop
  | call {s q t} : s.Admits codec q t → VerifyStep codec s (.call q t) (s.after codec q t)
  /-- The process stops before access `n` of the request, and a new one loads. -/
  | crash {s q t n a records disk} : s.Admits codec q t → t.now ≤ a.wallNow → a.wallNow ≤ a.now →
      Lists a ((q.call codec t s.memory).cut n s.disk) →
      loadRecords codec ((q.call codec t s.memory).cut n s.disk) a = .ok (records, disk) →
      VerifyStep codec s (.crash q t n a) (s.recovered q t a records disk)

/-! ## Clocks -/

variable {codec : RecoveryCodec S V W} {k : Kept S V W} {memory memory' memory'' : Records S V W}
  {disk d : Disk} {s s' : VerifyState S V W} {q : Request S V W} {t : Readings} {now now' : Nat}
  {id : String}

theorem nowUnixMs_mono (h : now ≤ now') : nowUnixMs now ≤ nowUnixMs now' := by
  have hdiv : now / 1000000 ≤ now' / 1000000 := Nat.div_le_div_right h
  unfold nowUnixMs
  omega

theorem lt_of_nowUnixMs_lt (h : nowUnixMs now < k.expiresMs) : now < k.expiresMs * 1000000 := by
  have hle : k.expiresMs ≤ u64Max := Nat.min_le_right _ _
  have hms : nowUnixMs now = now / 1000000 := by
    unfold nowUnixMs at h ⊢
    omega
  omega

/-- The persisted expiry is not the later one. -/
theorem Kept.expiresMs_le (hclock : k.wallNow ≤ k.now) (hlive : k.now < k.expiresMs * 1000000) :
    k.expiresMs * 1000000 ≤ k.record.expiresAt := by
  have hle : k.expiresMs ≤ k.wallNow / 1000000 + (k.record.expiresAt - k.now) / 1000000 := by
    unfold Kept.expiresMs nowUnixMs
    omega
  omega

/-- It is earlier by the rounding of two milliseconds and what lies between the clocks. -/
theorem Kept.le_expiresMs (hrange : k.record.expiresAt + k.wallNow ≤ u64Max) :
    k.record.expiresAt ≤ k.expiresMs * 1000000 + 2000000 + (k.now - k.wallNow) := by
  have hms : k.expiresMs = k.wallNow / 1000000 + (k.record.expiresAt - k.now) / 1000000 := by
    unfold Kept.expiresMs nowUnixMs
    omega
  omega

/-! ## Memory -/

/-- What a record in memory may be. -/
def VerificationRecord.Active (r : VerificationRecord S V W) : Prop :=
  r.status = .pending ∨ r.status = .verifying

/-- The status aside, the same record. -/
def VerificationRecord.Same (r r' : VerificationRecord S V W) : Prop :=
  r'.visualBytes = r.visualBytes ∧ r'.expiresAt = r.expiresAt

/-- Records that have expired may be dropped, and the status of others be changed. -/
structure Tends (now : Nat) (memory memory' : Records S V W) : Prop where
  origin : ∀ id r', memory'.get id = some r' → ∃ r, memory.get id = some r ∧ r.Same r'
  keeps : ∀ id r, memory.get id = some r → now < r.expiresAt →
    ∃ r', memory'.get id = some r' ∧ r.Same r'
  active : ∀ id r', memory'.get id = some r' → r'.Active

/-- The record is in memory, and expires there no earlier than on the disk. -/
def Backs (memory : Records S V W) (k : Kept S V W) : Prop :=
  ∃ r, memory.get k.id = some r ∧ r.visualBytes = k.record.visualBytes ∧
    k.expiresMs * 1000000 ≤ r.expiresAt

theorem Tends.trans (h : Tends now memory memory') (h' : Tends now memory' memory'') :
    Tends now memory memory'' := by
  refine ⟨?_, ?_, h'.active⟩
  · intro id r'' hr''
    obtain ⟨r', hr', hsame'⟩ := h'.origin id r'' hr''
    obtain ⟨r, hr, hsame⟩ := h.origin id r' hr'
    exact ⟨r, hr, hsame'.1.trans hsame.1, hsame'.2.trans hsame.2⟩
  · intro id r hr hlive
    obtain ⟨r', hr', hsame⟩ := h.keeps id r hr hlive
    obtain ⟨r'', hr'', hsame'⟩ := h'.keeps id r' hr' (by rw [hsame.2]; exact hlive)
    exact ⟨r'', hr'', hsame'.1.trans hsame.1, hsame'.2.trans hsame.2⟩

theorem Tends.size_le (h : Tends now memory memory') : memory'.size ≤ memory.size := by
  have hlength : (memory'.entries.map Prod.fst).length ≤ memory.size := by
    apply memory.length_le_size memory'.nodup
    intro id hid
    obtain ⟨r', hr'⟩ := Option.isSome_iff_exists.mp (memory'.get_isSome_iff.mpr hid)
    obtain ⟨r, hr, -⟩ := h.origin id r' hr'
    rw [hr]
    rfl
  rw [length_map] at hlength
  exact hlength

open VerificationRecord

theorem Tends.total_le (h : Tends now memory memory') :
    memory'.total visualBytes ≤ memory.total visualBytes := by
  apply memory.total_le_total
  intro id r' hr'
  obtain ⟨r, hr, hsame⟩ := h.origin id r' hr'
  exact ⟨r, hr, Nat.le_of_eq hsame.1⟩

theorem Tends.backs (h : Tends now memory memory') (hk : Backs memory k)
    (hlive : nowUnixMs now < k.expiresMs) : Backs memory' k := by
  obtain ⟨r, hr, hbytes, hexpires⟩ := hk
  have hnow := lt_of_nowUnixMs_lt hlive
  obtain ⟨r', hr', hsame⟩ := h.keeps _ r hr (by omega)
  exact ⟨r', hr', hsame.1.trans hbytes, hsame.2 ▸ hexpires⟩

/-- The first two passes of every request. -/
theorem tends_reap (hactive : ∀ id r, memory.get id = some r → r.Active) (hclock : now' ≤ now) :
    Tends now memory (reapExpiredLocked memory now') := by
  have hget : ∀ id r', (reapExpiredLocked memory now').get id = some r' →
      memory.get id = some r' := by
    intro id r' hr'
    rw [reapExpiredLocked, get_retain, filter_eq_some_iff] at hr'
    exact hr'.1
  refine ⟨fun id r' hr' => ⟨r', hget id r' hr', rfl, rfl⟩, fun id r hr hlive => ⟨r, ?_, rfl, rfl⟩,
    fun id r' hr' => hactive id r' (hget id r' hr')⟩
  have hsame : r.expire now' = r := by
    unfold expire
    apply if_neg
    rintro ⟨-, hexpired⟩
    omega
  rw [reapExpiredLocked, get_retain, hr, filter_eq_some_iff]
  refine ⟨rfl, ?_⟩
  rw [hsame]
  rcases hactive id r hr with hstatus | hstatus
  · rw [hstatus]
    rfl
  · rw [hstatus]
    rfl

theorem tends_status (hactive : ∀ id r, memory.get id = some r → r.Active)
    {r : VerificationRecord S V W} {status : VerificationStatus} (hr : memory.get id = some r)
    (hstatus : ({ r with status } : VerificationRecord S V W).Active) :
    Tends now memory (memory.insert id { r with status }) := by
  refine ⟨?_, ?_, ?_⟩
  · intro id' r' hr'
    rw [get_insert] at hr'
    rcases ite_eq_iff.mp hr' with ⟨hid, hr'⟩ | ⟨hid, hr'⟩
    · cases hr'
      exact ⟨r, hid ▸ hr, rfl, rfl⟩
    · exact ⟨r', hr', rfl, rfl⟩
  · intro id' r' hr' _
    rw [get_insert]
    by_cases hid : id' = id
    · rw [hid, hr] at hr'
      cases hr'
      exact ⟨_, if_pos hid, rfl, rfl⟩
    · exact ⟨r', by rw [if_neg hid]; exact hr', rfl, rfl⟩
  · intro id' r' hr'
    rw [get_insert] at hr'
    rcases ite_eq_iff.mp hr' with ⟨hid, hr'⟩ | ⟨hid, hr'⟩
    · cases hr'
      exact hstatus
    · exact hactive id' r' hr'

/-- `begin_verify` on a record that has expired. -/
theorem tends_expired (hactive : ∀ id r, memory.get id = some r → r.Active)
    {r : VerificationRecord S V W} (hr : memory.get id = some r) (hexpired : r.expiresAt ≤ now) :
    Tends now memory (reapExpiredLocked (memory.insert id { r with status := .expired }) now) := by
  have hget : ∀ id', (reapExpiredLocked (memory.insert id { r with status := .expired }) now).get
      id' = if id' = id then none else (reapExpiredLocked memory now).get id' := by
    intro id'
    rw [reapExpiredLocked, get_retain, get_insert]
    by_cases hid : id' = id
    · rw [if_pos hid, if_pos hid]
      rfl
    · rw [if_neg hid, if_neg hid, reapExpiredLocked, get_retain]
  have hreap := tends_reap hactive (Nat.le_refl now)
  refine ⟨?_, ?_, ?_⟩
  · intro id' r' hr'
    rw [hget] at hr'
    split at hr'
    · cases hr'
    · exact hreap.origin id' r' hr'
  · intro id' r' hr' hlive
    have hid : id' ≠ id := by
      rintro rfl
      rw [hr] at hr'
      cases hr'
      omega
    obtain ⟨r'', hr'', hsame⟩ := hreap.keeps id' r' hr' hlive
    exact ⟨r'', by rw [hget, if_neg hid]; exact hr'', hsame⟩
  · intro id' r' hr'
    rw [hget] at hr'
    split at hr'
    · cases hr'
    · exact hreap.active id' r' hr'

theorem tends_erase_absent (hactive : ∀ id r, memory.get id = some r → r.Active)
    (h : memory.get id = none) : Tends now memory (memory.erase id) := by
  refine ⟨?_, ?_, ?_⟩
  · intro id' r' hr'
    rw [memory.get_erase_absent h] at hr'
    exact ⟨r', hr', rfl, rfl⟩
  · intro id' r' hr' _
    exact ⟨r', by rw [memory.get_erase_absent h]; exact hr', rfl, rfl⟩
  · intro id' r' hr'
    rw [memory.get_erase_absent h] at hr'
    exact hactive id' r' hr'

/-! ## One request -/

/-- There is room for the record beside those in memory. -/
structure Room (memory : Records S V W) (r : VerificationRecord S V W) : Prop where
  count : memory.size < maxVerificationRecords
  each : r.visualBytes ≤ maxVerifyVisualBytesPerRecord
  total : memory.total visualBytes + r.visualBytes ≤ maxVerifyTotalVisualBytes

/-- The files, wherever the request is stopped. -/
def Touched (codec : RecoveryCodec S V W) (q : Request S V W) (t : Readings)
    (memory : Records S V W) (disk d : Disk) : Prop :=
  d = disk ∨
    (∃ k, q.inserted t = some k ∧ Room (reapExpiredLocked memory t.reap) k.record ∧
      Persisting codec k disk d) ∨
    ∃ id, q.consumed = some id ∧ Taken id disk d

/-- How a request ends. -/
inductive Ended (codec : RecoveryCodec S V W) (q : Request S V W) (t : Readings)
    (memory : Records S V W) (disk : Disk) : Answered S V W → Disk → Prop
  | unchanged {answer : Except String Unit} {memory' : Records S V W} : Tends t.now memory memory' →
      (answer = .ok () → q.inserted t = none ∧ ∀ id ∈ q.consumed, memory'.get id = none) →
      Ended codec q t memory disk (answer, memory') disk
  | refused {e : String} {k : Kept S V W} {d : Disk} : q.inserted t = some k → Elsewhere k.id disk d → d ⟨k.id, .json⟩ = none →
      Ended codec q t memory disk (.error e, reapExpiredLocked memory t.reap) d
  | inserted {k : Kept S V W} {d : Disk} : q.inserted t = some k → Room (reapExpiredLocked memory t.reap) k.record →
      k.record.status = .pending → Elsewhere k.id disk d → Intact codec d k →
      Ended codec q t memory disk
        (.ok (), (reapExpiredLocked memory t.reap).insert k.id k.record) d
  | consumed {id : String} {d : Disk} : q.consumed = some id → Taken id disk d →
      Ended codec q t memory disk (.ok (), (reapExpiredLocked memory t.reap).erase id) d

theorem Readings.reap_le_now (t : Readings) : t.reap ≤ t.now := Nat.le_trans t.wall_le t.now_le

theorem solo_insert {record : VerificationRecord S V W} {o : PersistOutcomes}
    (hactive : ∀ id r, memory.get id = some r → r.Active)
    (hfresh : ∀ kind, disk ⟨record.verificationId, kind⟩ = none)
    (hpersistable : (Kept.mk record t.wall t.now).Persistable codec) :
    Solo (Touched codec (.insert record o) t memory disk)
      (Ended codec (.insert record o) t memory disk) (fun _ _ => False)
      (TrustedVerify.insert codec record o t memory) disk := by
  have hreap := tends_reap hactive t.reap_le_now
  have herror : ∀ e, Ended codec (.insert record o) t memory disk
      (.error e, reapExpiredLocked memory t.reap) disk := fun e =>
    .unchanged hreap (by intro; contradiction)
  unfold TrustedVerify.insert
  by_cases hcount : maxVerificationRecords ≤ (reapExpiredLocked memory t.reap).size
  · rw [if_pos hcount]
    exact herror _
  rw [if_neg hcount]
  by_cases heach : maxVerifyVisualBytesPerRecord < record.visualBytes
  · erw [if_pos heach]
    exact herror _
  erw [if_neg heach]
  by_cases hoverflow : u64Max <
      retainedVisualBytes (reapExpiredLocked memory t.reap) + record.visualBytes
  · erw [if_pos hoverflow]
    exact herror _
  erw [if_neg hoverflow]
  by_cases htotal : maxVerifyTotalVisualBytes <
      retainedVisualBytes (reapExpiredLocked memory t.reap) + record.visualBytes
  · erw [if_pos htotal]
    exact herror _
  erw [if_neg htotal]
  have hroom : Room (reapExpiredLocked memory t.reap) record :=
    ⟨Nat.not_le.mp hcount, Nat.not_lt.mp heach, Nat.not_lt.mp htotal⟩
  refine solo_bind.mpr (solo_attempt.mpr
    ((@solo_persistRecord S V W codec ⟨record, t.wall, t.now⟩ disk o hfresh hpersistable
      hroom.each).weaken ?_ ?_ ?_))
  · exact fun d hd => .inr (.inl ⟨_, rfl, hroom, hd⟩)
  · rintro - d ⟨helsewhere, hintact, hstatus⟩
    exact .inserted rfl hroom hstatus helsewhere hintact
  · rintro e d ⟨helsewhere, hjson⟩
    exact .refused rfl helsewhere hjson

theorem solo_beginVerify (hactive : ∀ id r, memory.get id = some r → r.Active) :
    Solo (Touched codec (.beginVerify id) t memory disk)
      (Ended codec (.beginVerify id) t memory disk) (fun _ _ => False)
      (beginVerify id t memory) disk := by
  have hsame : Tends t.now memory memory :=
    ⟨fun _ r hr => ⟨r, hr, rfl, rfl⟩, fun _ r hr _ => ⟨r, hr, rfl, rfl⟩, hactive⟩
  have hunchanged : ∀ answer memory', Tends t.now memory memory' →
      Ended codec (.beginVerify id) t memory disk (answer, memory') disk := fun answer memory' h =>
    .unchanged h fun _ => ⟨rfl, by simp [Request.consumed]⟩
  unfold beginVerify
  cases hget : memory.get id with
  | none => exact hunchanged _ _ hsame
  | some r =>
    by_cases hexpired : r.expiresAt ≤ t.wall
    · simp only [if_pos hexpired]
      exact hunchanged _ _ (tends_expired hactive hget (Nat.le_trans hexpired t.now_le))
    · simp only [if_neg hexpired]
      by_cases hstatus : r.status ≠ .pending
      · rw [if_pos hstatus]
        exact hunchanged _ _ (tends_reap hactive (Nat.le_refl _))
      · rw [if_neg hstatus]
        exact hunchanged _ _ (tends_status hactive hget (.inr rfl))

theorem solo_releaseRetryable (hactive : ∀ id r, memory.get id = some r → r.Active) :
    Solo (Touched codec (.releaseRetryable id) t memory disk)
      (Ended codec (.releaseRetryable id) t memory disk) (fun _ _ => False)
      (releaseRetryable id t memory) disk := by
  have hreap := tends_reap hactive t.reap_le_now
  have hunchanged : ∀ answer memory', Tends t.now memory memory' →
      Ended codec (.releaseRetryable id) t memory disk (answer, memory') disk :=
    fun answer memory' h => .unchanged h fun _ => ⟨rfl, by simp [Request.consumed]⟩
  simp only [releaseRetryable]
  cases hget : (reapExpiredLocked memory t.reap).get id with
  | none => exact hunchanged _ _ hreap
  | some r =>
    by_cases hstatus : r.status = .verifying
    · simp only [if_pos hstatus]
      exact hunchanged _ _ (hreap.trans (tends_status hreap.active hget (.inl rfl)))
    · simp only [if_neg hstatus]
      exact hunchanged _ _ hreap

theorem solo_complete {o : ConsumeOutcomes}
    (hactive : ∀ id r, memory.get id = some r → r.Active) :
    Solo (Touched codec (.complete id o) t memory disk)
      (Ended codec (.complete id o) t memory disk) (fun _ _ => False)
      (complete codec id o t memory) disk := by
  have hreap := tends_reap hactive t.reap_le_now
  have herror : ∀ e memory', Tends t.now memory memory' →
      Ended codec (.complete id o) t memory disk (.error e, memory') disk := fun e memory' h =>
    .unchanged h (by intro; contradiction)
  simp only [complete]
  cases hget : (reapExpiredLocked memory t.reap).get id with
  | none => exact herror _ _ hreap
  | some r =>
    by_cases hstatus : r.status ≠ .verifying
    · simp only [if_pos hstatus]
      exact herror _ _ hreap
    · simp only [if_neg hstatus]
      refine solo_bind.mpr (solo_attempt.mpr (solo_consumeRecord.weaken ?_ ?_ ?_))
      · exact fun d hd => hd.imp_right fun htaken => .inr ⟨id, rfl, htaken⟩
      · exact fun _ d htaken => .consumed rfl htaken
      · rintro e d rfl
        exact herror _ _ (hreap.trans (tends_status hreap.active hget (.inl rfl)))

theorem solo_discard {o : ConsumeOutcomes}
    (hactive : ∀ id r, memory.get id = some r → r.Active) :
    Solo (Touched codec (.discard id o) t memory disk)
      (Ended codec (.discard id o) t memory disk) (fun _ _ => False)
      (discardVerification codec id o t memory) disk := by
  have hreap := tends_reap hactive t.reap_le_now
  simp only [discardVerification]
  cases hget : (reapExpiredLocked memory t.reap).get id with
  | none =>
    refine .unchanged (hreap.trans (tends_erase_absent hreap.active hget)) fun _ => ⟨rfl, ?_⟩
    rintro id' ⟨⟩
    exact get_erase_self _
  | some r =>
    refine solo_bind.mpr (solo_attempt.mpr (solo_consumeRecord.weaken ?_ ?_ ?_))
    · exact fun d hd => hd.imp_right fun htaken => .inr ⟨id, rfl, htaken⟩
    · exact fun _ d htaken => .consumed rfl htaken
    · rintro e d rfl
      exact .unchanged hreap (by intro; contradiction)

/-- **One request**, ended or stopped. -/
theorem solo_call (hactive : ∀ id r, memory.get id = some r → r.Active)
    (hfresh : ∀ k ∈ q.inserted t, ∀ kind, disk ⟨k.id, kind⟩ = none)
    (hpersistable : ∀ k ∈ q.inserted t, k.Persistable codec) :
    Solo (Touched codec q t memory disk) (Ended codec q t memory disk) (fun _ _ => False)
      (q.call codec t memory) disk := by
  cases q with
  | insert record o => exact solo_insert hactive (hfresh _ rfl) (hpersistable _ rfl)
  | beginVerify id => exact solo_beginVerify hactive
  | releaseRetryable id => exact solo_releaseRetryable hactive
  | complete id o => exact solo_complete hactive
  | discard id o => exact solo_discard hactive
  | reapExpired =>
    exact .unchanged (tends_reap hactive t.reap_le_now) fun _ => ⟨rfl, by simp [Request.consumed]⟩

/-! ## Every run -/

/-- What is known of one id. -/
structure SoundAt (codec : RecoveryCodec S V W) (s : VerifyState S V W) (id : String) : Prop where
  files : ∀ kind, (s.disk ⟨id, kind⟩).isSome → id ∈ s.issued
  noted : ∀ k, s.ledger id = some k → k.id = id ∧ id ∈ s.issued ∧ id ∉ s.retired
  clocks : ∀ k, s.ledger id = some k → k.wallNow ≤ k.now ∧ k.now ≤ s.now
  live : ∀ k, s.ledger id = some k → nowUnixMs s.now < k.expiresMs →
    Intact codec s.disk k ∧ Backs s.memory k
  json : ∀ bytes, s.disk ⟨id, .json⟩ = some bytes → ∃ k : Kept S V W, k.id = id ∧
    Remains codec s.disk k ∧ (s.ledger id = some k ∨ k.expiresMs ≤ nowUnixMs s.now)
  retired : id ∈ s.retired → id ∈ s.issued

/-- The invariant of the store. -/
structure Sound (codec : RecoveryCodec S V W) (s : VerifyState S V W) : Prop where
  capacity : s.memory.size ≤ maxVerificationRecords
  visual : s.memory.total visualBytes ≤ maxVerifyTotalVisualBytes
  active : ∀ id r, s.memory.get id = some r → r.Active
  at_id : ∀ id, SoundAt codec s id

theorem Sound.start : Sound codec (.start now : VerifyState S V W) := by
  refine ⟨Nat.zero_le _, Nat.zero_le _, by simp [VerifyState.start], fun id => ?_⟩
  refine ⟨?_, ?_, ?_, ?_, ?_, ?_⟩
  all_goals simp [VerifyState.start]

/-- What the step does not touch is known as before. -/
theorem SoundAt.frame (h : SoundAt codec s id)
    (hdisk : ∀ kind, s'.disk ⟨id, kind⟩ = s.disk ⟨id, kind⟩) (hledger : s'.ledger id = s.ledger id)
    (hissued : id ∈ s.issued → id ∈ s'.issued) (hretired : id ∈ s'.retired ↔ id ∈ s.retired)
    (hclock : s.now ≤ s'.now) (hbacks : ∀ k : Kept S V W, k.id = id →
      nowUnixMs s'.now < k.expiresMs → Backs s.memory k → Backs s'.memory k) :
    SoundAt codec s' id := by
  have hms := nowUnixMs_mono hclock
  refine ⟨?_, ?_, ?_, ?_, ?_, fun hid => hissued (h.retired (hretired.mp hid))⟩
  · intro kind hsome
    rw [hdisk] at hsome
    exact hissued (h.files kind hsome)
  · intro k hk
    rw [hledger] at hk
    obtain ⟨hid, hin, hnot⟩ := h.noted k hk
    exact ⟨hid, hissued hin, fun hr => hnot (hretired.mp hr)⟩
  · intro k hk
    rw [hledger] at hk
    obtain ⟨hwall, hnow⟩ := h.clocks k hk
    exact ⟨hwall, Nat.le_trans hnow hclock⟩
  · intro k hk hlive
    rw [hledger] at hk
    have hid := (h.noted k hk).1
    obtain ⟨hintact, hback⟩ := h.live k hk (by omega)
    exact ⟨hintact.congr fun kind _ => by rw [hid, hdisk], hbacks k hid hlive hback⟩
  · intro bytes hbytes
    rw [hdisk] at hbytes
    obtain ⟨k, hid, hremains, hcase⟩ := h.json bytes hbytes
    refine ⟨k, hid, hremains.congr (by rw [hid, hdisk]) (.inl (by rw [hid, hdisk])), ?_⟩
    rw [hledger]
    refine hcase.imp_right fun hexpired => ?_
    omega

/-- An id of which there is no record any more, on the disk at most one that has expired. -/
theorem SoundAt.gone (hledger : s'.ledger id = none)
    (hfiles : ∀ kind, (s'.disk ⟨id, kind⟩).isSome → id ∈ s'.issued)
    (hretired : id ∈ s'.retired → id ∈ s'.issued)
    (hjson : ∀ bytes, s'.disk ⟨id, .json⟩ = some bytes → ∃ k : Kept S V W, k.id = id ∧
      Remains codec s'.disk k ∧ k.expiresMs ≤ nowUnixMs s'.now) : SoundAt codec s' id := by
  refine ⟨hfiles, ?_, ?_, ?_, ?_, hretired⟩
  · intro k hk
    rw [hledger] at hk
    cases hk
  · intro k hk
    rw [hledger] at hk
    cases hk
  · intro k hk
    rw [hledger] at hk
    cases hk
  · intro bytes hbytes
    obtain ⟨k, hid, hremains, hexpired⟩ := hjson bytes hbytes
    exact ⟨k, hid, hremains, .inr hexpired⟩

theorem noting_of_ne (h : ∀ k ∈ q.inserted t, k.id ≠ id) {ledger : String → Option (Kept S V W)} :
    q.noting t ledger id = ledger id := by
  have hnone : (q.inserted t).filter (fun k => k.id = id) = none := by
    rw [filter_eq_none_iff]
    intro k hk
    simpa using h k hk
  rw [Request.noting, hnone, none_or]

theorem noting_self (h : q.inserted t = some k) {ledger : String → Option (Kept S V W)} :
    q.noting t ledger k.id = some k := by
  simp [Request.noting, h]

theorem consumed_of_inserted (h : q.inserted t = some k) : q.consumed = none := by
  cases q with
  | insert record o => rfl
  | _ => cases h

theorem Kept.clocks_of_inserted (h : q.inserted t = some k) : k.wallNow = t.wall ∧ k.now = t.now := by
  cases q with
  | insert record o =>
    cases h
    exact ⟨rfl, rfl⟩
  | _ => cases h

theorem mem_issuedBy : id ∈ s.issuedBy q t ↔ (∃ k ∈ q.inserted t, k.id = id) ∨ id ∈ s.issued := by
  simp [VerifyState.issuedBy]

theorem Sound.solo (h : Sound codec s) (hq : s.Admits codec q t) :
    Solo (Touched codec q t s.memory s.disk) (Ended codec q t s.memory s.disk) (fun _ _ => False)
      (q.call codec t s.memory) s.disk := by
  refine solo_call h.active (fun k hk kind => ?_) hq.persistable
  by_contra hsome
  rw [← ne_eq, ne_none_iff_isSome] at hsome
  exact hq.fresh k hk ((h.at_id k.id).files kind hsome)

@[simp] theorem acknowledged_memory : (s.acknowledged q t memory d).memory = memory := rfl

@[simp] theorem acknowledged_disk : (s.acknowledged q t memory d).disk = d := rfl

@[simp] theorem refused_disk : (s.refused q t memory d).disk = d := rfl

theorem mem_acknowledged_retired : id ∈ (s.acknowledged q t memory disk).retired ↔
    q.consumed = some id ∧ id ∈ s.issued ∨ id ∈ s.retired := by
  simp [VerifyState.acknowledged]

theorem mem_issuedBy_of_mem (h : id ∈ s.issued) : id ∈ s.issuedBy q t := mem_issuedBy.mpr (.inr h)

/-- The request acknowledges that there is no such record. -/
theorem SoundAt.acknowledged_gone (h : SoundAt codec s id) (hid : q.consumed = some id)
    (hfiles : ∀ kind, (d ⟨id, kind⟩).isSome → (s.disk ⟨id, kind⟩).isSome)
    (hjson : ∀ bytes, d ⟨id, .json⟩ = some bytes → ∃ k : Kept S V W, k.id = id ∧
      Remains codec d k ∧ k.expiresMs ≤ nowUnixMs t.now) :
    SoundAt codec (s.acknowledged q t memory d) id := by
  refine SoundAt.gone (if_pos hid) ?_ ?_ hjson
  · exact fun kind hsome => mem_issuedBy_of_mem (h.files kind (hfiles kind hsome))
  · intro hretired
    rcases mem_acknowledged_retired.mp hretired with ⟨-, hissued⟩ | hretired
    · exact mem_issuedBy_of_mem hissued
    · exact mem_issuedBy_of_mem (h.retired hretired)

/-- It says nothing of this id. -/
theorem SoundAt.acknowledged_frame (h : SoundAt codec s id) (hclock : s.now ≤ t.now)
    (hinserted : ∀ k ∈ q.inserted t, k.id ≠ id) (hid : q.consumed ≠ some id)
    (hdisk : ∀ kind, d ⟨id, kind⟩ = s.disk ⟨id, kind⟩)
    (hbacks : ∀ k : Kept S V W, k.id = id → nowUnixMs t.now < k.expiresMs → Backs s.memory k →
      Backs memory k) : SoundAt codec (s.acknowledged q t memory d) id := by
  refine h.frame hdisk ?_ mem_issuedBy_of_mem ?_ hclock hbacks
  · exact (if_neg hid).trans (noting_of_ne hinserted)
  · rw [mem_acknowledged_retired]
    exact or_iff_right fun hconsumed => hid hconsumed.1

theorem sound_unchanged (h : Sound codec s) (hclock : s.now ≤ t.now)
    (htends : Tends t.now s.memory memory) (hinserted : q.inserted t = none)
    (hconsumed : ∀ id ∈ q.consumed, memory.get id = none) :
    Sound codec (s.acknowledged q t memory s.disk) := by
  refine ⟨Nat.le_trans htends.size_le h.capacity, Nat.le_trans htends.total_le h.visual,
    htends.active, fun id => ?_⟩
  have hms := nowUnixMs_mono hclock
  by_cases hid : q.consumed = some id
  · refine (h.at_id id).acknowledged_gone hid (fun _ hsome => hsome) fun bytes hbytes => ?_
    obtain ⟨k, hkid, hremains, hcase⟩ := (h.at_id id).json bytes hbytes
    refine ⟨k, hkid, hremains, ?_⟩
    rcases hcase with hk | hexpired
    · -- in memory it is not any more, so that it has expired
      by_contra hlive
      have hlive' := Nat.not_le.mp hlive
      obtain ⟨r, hr, -⟩ := htends.backs ((h.at_id id).live k hk (by omega)).2 hlive'
      rw [hkid, hconsumed id hid] at hr
      cases hr
    · exact Nat.le_trans hexpired hms
  · exact (h.at_id id).acknowledged_frame hclock (by simp [hinserted]) hid (fun _ => rfl)
      fun k _ hlive hback => htends.backs hback hlive

theorem sound_refused (h : Sound codec s) (hclock : s.now ≤ t.now)
    (htends : Tends t.now s.memory memory)
    (hdisk : d = s.disk ∨ ∃ k, q.inserted t = some k ∧ k.id ∉ s.issued ∧
      Elsewhere k.id s.disk d ∧ d ⟨k.id, .json⟩ = none) :
    Sound codec (s.refused q t memory d) := by
  refine ⟨Nat.le_trans htends.size_le h.capacity, Nat.le_trans htends.total_le h.visual,
    htends.active, fun id => ?_⟩
  have hframe : (∀ kind, d ⟨id, kind⟩ = s.disk ⟨id, kind⟩) →
      SoundAt codec (s.refused q t memory d) id := fun hsame =>
    (h.at_id id).frame hsame rfl mem_issuedBy_of_mem Iff.rfl hclock
      fun k _ hlive hback => htends.backs hback hlive
  rcases hdisk with rfl | ⟨k, hk, hfresh, helsewhere, hjson⟩
  · exact hframe fun _ => rfl
  by_cases hid : id = k.id
  · subst hid
    have hissued : k.id ∈ s.issuedBy q t := mem_issuedBy.mpr (.inl ⟨k, hk, rfl⟩)
    have hledger : s.ledger k.id = none := by
      by_contra hsome
      obtain ⟨k', hk'⟩ := Option.ne_none_iff_exists'.mp hsome
      exact hfresh ((h.at_id k.id).noted k' hk').2.1
    refine SoundAt.gone hledger (fun _ _ => hissued) (fun _ => hissued) fun bytes hbytes => ?_
    rw [refused_disk, hjson] at hbytes
    cases hbytes
  · exact hframe fun kind => helsewhere _ hid

theorem sound_inserted (h : Sound codec s) (hq : s.Admits codec q t) (hk : q.inserted t = some k)
    (hroom : Room (reapExpiredLocked s.memory t.reap) k.record) (hstatus : k.record.status = .pending)
    (helsewhere : Elsewhere k.id s.disk d) (hintact : Intact codec d k) :
    Sound codec (s.acknowledged q t
      ((reapExpiredLocked s.memory t.reap).insert k.id k.record) d) := by
  have hclock : s.now ≤ t.now := Nat.le_trans hq.clock t.reap_le_now
  have hreap := tends_reap h.active t.reap_le_now
  have hfresh := hq.fresh k hk
  have hconsumed := consumed_of_inserted hk
  obtain ⟨hwall, hnow⟩ := Kept.clocks_of_inserted hk
  have hissued : k.id ∈ s.issuedBy q t := mem_issuedBy.mpr (.inl ⟨k, hk, rfl⟩)
  refine ⟨?_, ?_, ?_, fun id => ?_⟩
  · have hcount := hroom.count
    have hsize := (reapExpiredLocked s.memory t.reap).size_insert_le (k := k.id) (v := k.record)
    show ((reapExpiredLocked s.memory t.reap).insert k.id k.record).size ≤ _
    omega
  · exact Nat.le_trans (total_insert_le _ _) hroom.total
  · intro id r hr
    rw [acknowledged_memory, get_insert] at hr
    rcases ite_eq_iff.mp hr with ⟨hid, hr⟩ | ⟨hid, hr⟩
    · cases hr
      exact .inl hstatus
    · exact hreap.active id r hr
  · by_cases hid : id = k.id
    · subst hid
      have hledger : (s.acknowledged q t
          ((reapExpiredLocked s.memory t.reap).insert k.id k.record) d).ledger k.id = some k := by
        show (if _ then _ else _) = _
        rw [hconsumed, if_neg (by simp), noting_self hk]
      refine ⟨fun _ _ => hissued, ?_, ?_, ?_, ?_, fun _ => hissued⟩
      · intro k' hk'
        rw [hledger] at hk'
        cases hk'
        refine ⟨rfl, hissued, fun hretired => ?_⟩
        rcases mem_acknowledged_retired.mp hretired with ⟨hc, -⟩ | hretired
        · rw [hconsumed] at hc
          cases hc
        · exact hfresh ((h.at_id k.id).retired hretired)
      · intro k' hk'
        rw [hledger] at hk'
        cases hk'
        refine ⟨?_, Nat.le_of_eq hnow⟩
        rw [hwall, hnow]
        exact t.now_le
      · intro k' hk' hlive
        rw [hledger] at hk'
        cases hk'
        refine ⟨hintact, k.record, get_insert_self _, rfl, ?_⟩
        apply Kept.expiresMs_le
        · rw [hwall, hnow]
          exact t.now_le
        · rw [hnow]
          exact lt_of_nowUnixMs_lt hlive
      · intro bytes hbytes
        exact ⟨k, rfl, hintact.remains, .inl hledger⟩
    · refine (h.at_id id).acknowledged_frame hclock ?_ (by simp [hconsumed])
        (fun kind => helsewhere _ hid) fun k' hk'id hlive hback => ?_
      · intro k' hk'
        rw [hk] at hk'
        cases hk'
        exact fun heq => hid heq.symm
      · obtain ⟨r, hr, hrest⟩ := hreap.backs hback hlive
        refine ⟨r, ?_, hrest⟩
        rw [get_insert_of_ne _ (by rw [hk'id]; exact hid)]
        exact hr

theorem sound_consumed {id : String} (h : Sound codec s) (hclock : s.now ≤ t.now)
    (hid : q.consumed = some id) (htaken : Taken id s.disk d) :
    Sound codec (s.acknowledged q t ((reapExpiredLocked s.memory t.reap).erase id) d) := by
  have hreap := tends_reap h.active t.reap_le_now
  have hinserted : q.inserted t = none := by
    cases hk : q.inserted t with
    | none => rfl
    | some k =>
      rw [consumed_of_inserted hk] at hid
      cases hid
  refine ⟨?_, ?_, ?_, fun id' => ?_⟩
  · exact Nat.le_trans (size_retain_le _ _) (Nat.le_trans hreap.size_le h.capacity)
  · exact Nat.le_trans (total_retain_le _ _ _)
      (Nat.le_trans hreap.total_le h.visual)
  · intro id' r hr
    rw [acknowledged_memory, get_erase] at hr
    split at hr
    · cases hr
    · exact hreap.active id' r hr
  · by_cases hne : id' = id
    · subst hne
      have hissued : id' ∈ s.issued := by
        obtain ⟨kind, hsome⟩ := htaken.known
        exact (h.at_id id').files kind hsome
      refine SoundAt.gone (if_pos hid) (fun _ _ => mem_issuedBy_of_mem hissued)
        (fun _ => mem_issuedBy_of_mem hissued) fun bytes hbytes => ?_
      rw [acknowledged_disk, htaken.json] at hbytes
      cases hbytes
    · refine (h.at_id id').acknowledged_frame hclock (by simp [hinserted])
        (fun heq => hne (Option.some.inj (heq.symm.trans hid)))
        (fun kind => htaken.elsewhere _ hne) fun k hkid hlive hback => ?_
      obtain ⟨r, hr, hrest⟩ := hreap.backs hback hlive
      refine ⟨r, ?_, hrest⟩
      rw [get_erase_of_ne _ (by rw [hkid]; exact hne)]
      exact hr

/-- **A request** that was answered. -/
theorem sound_after (h : Sound codec s) (hq : s.Admits codec q t) : Sound codec (s.after codec q t) := by
  have hends := (h.solo hq).ends
  have hclock : s.now ≤ t.now := Nat.le_trans hq.clock t.reap_le_now
  rcases hsolo : (q.call codec t s.memory).solo s.disk with ⟨e | ⟨answer, memory'⟩, d⟩
  · exact nomatch e
  rw [hsolo] at hends
  have hended : Ended codec q t s.memory s.disk (answer, memory') d := hends.1 _ rfl
  rw [VerifyState.after, hsolo]
  cases hended with
  | unchanged htends hok =>
    cases answer with
    | error e => exact sound_refused h hclock htends (.inl rfl)
    | ok =>
      obtain ⟨hinserted, hconsumed⟩ := hok rfl
      exact sound_unchanged h hclock htends hinserted hconsumed
  | refused hk helsewhere hjson =>
    exact sound_refused h hclock (tends_reap h.active t.reap_le_now)
      (.inr ⟨_, hk, hq.fresh _ hk, helsewhere, hjson⟩)
  | inserted hk hroom hstatus helsewhere hintact =>
    exact sound_inserted h hq hk hroom hstatus helsewhere hintact
  | consumed hid htaken => exact sound_consumed h hclock hid htaken

/-! ## A crash -/

/-- What of the ledger is found when it is loaded at the time. -/
def found (d : Disk) (nowMs : Nat) (ledger : String → Option (Kept S V W)) :
    String → Option (Kept S V W) := fun id =>
  (ledger id).filter fun k => (d ⟨id, .json⟩).isSome && decide (nowMs < k.expiresMs)

/-- What the crash has left of an id, the records of `memory` being those that there was
room for: no metadata, or what there was, or the new record. -/
def LeftAt (codec : RecoveryCodec S V W) (s : VerifyState S V W) (q : Request S V W) (t : Readings)
    (d : Disk) (memory : Records S V W) (id : String) : Prop :=
  d ⟨id, .json⟩ = none ∨
    ((∀ kind, d ⟨id, kind⟩ = s.disk ⟨id, kind⟩) ∧ q.noting t s.ledger id = s.ledger id ∧
      ∀ k : Kept S V W, k.id = id → nowUnixMs t.now < k.expiresMs → Backs s.memory k →
        ∃ r, memory.get id = some r ∧ k.record.visualBytes ≤ r.visualBytes) ∨
    ∃ k, q.inserted t = some k ∧ k.id = id ∧ Intact codec d k ∧
      ∃ r, memory.get id = some r ∧ k.record.visualBytes ≤ r.visualBytes

/-- **What is left**, wherever the request is stopped. -/
theorem left_of_touched (h : Sound codec s) (hq : s.Admits codec q t)
    (hd : Touched codec q t s.memory s.disk d) :
    ∃ memory : Records S V W, memory.size ≤ maxVerificationRecords ∧
      memory.total visualBytes ≤ maxVerifyTotalVisualBytes ∧
        ∀ id, LeftAt codec s q t d memory id ∧
          ∀ kind, (d ⟨id, kind⟩).isSome → id ∈ s.issuedBy q t := by
  have hbacked : ∀ {id} (k : Kept S V W), k.id = id → Backs s.memory k →
      ∃ r, s.memory.get id = some r ∧ k.record.visualBytes ≤ r.visualBytes := by
    rintro id k rfl ⟨r, hr, hbytes, -⟩
    exact ⟨r, hr, Nat.le_of_eq hbytes.symm⟩
  have hsame : ∀ id, (∀ kind, d ⟨id, kind⟩ = s.disk ⟨id, kind⟩) →
      ∀ kind, (d ⟨id, kind⟩).isSome → id ∈ s.issuedBy q t := by
    intro id hdisk kind hsome
    rw [hdisk] at hsome
    exact mem_issuedBy_of_mem ((h.at_id id).files kind hsome)
  rcases hd with rfl | ⟨k, hk, hroom, helsewhere, hcase⟩ | ⟨id, hid, htaken⟩
  · refine ⟨s.memory, h.capacity, h.visual, fun id => ⟨?_, hsame id fun _ => rfl⟩⟩
    by_cases hnew : ∃ k ∈ q.inserted t, k.id = id
    · obtain ⟨k, hk, rfl⟩ := hnew
      refine .inl ?_
      by_contra hsome
      rw [← ne_eq, ne_none_iff_isSome] at hsome
      exact hq.fresh k hk ((h.at_id k.id).files _ hsome)
    · have hother : ∀ k ∈ q.inserted t, k.id ≠ id := fun k hk heq => hnew ⟨k, hk, heq⟩
      exact .inr (.inl ⟨fun _ => rfl, noting_of_ne hother, fun k hk _ hback => hbacked k hk hback⟩)
  · have hreap := tends_reap h.active t.reap_le_now
    refine ⟨(reapExpiredLocked s.memory t.reap).insert k.id k.record, ?_, ?_, fun id => ?_⟩
    · have hcount := hroom.count
      have hsize := (reapExpiredLocked s.memory t.reap).size_insert_le (k := k.id) (v := k.record)
      omega
    · exact Nat.le_trans (total_insert_le _ _) hroom.total
    · by_cases hid : id = k.id
      · subst hid
        refine ⟨?_, fun _ _ => mem_issuedBy.mpr (.inl ⟨k, hk, rfl⟩)⟩
        rcases hcase with hnone | hintact
        · exact .inl hnone
        · exact .inr (.inr ⟨k, hk, rfl, hintact, k.record, get_insert_self _, Nat.le_refl _⟩)
      · have hdisk : ∀ kind, d ⟨id, kind⟩ = s.disk ⟨id, kind⟩ := fun kind => helsewhere _ hid
        have hother : ∀ k' ∈ q.inserted t, k'.id ≠ id := by
          intro k' hk'
          rw [hk] at hk'
          cases hk'
          exact fun heq => hid heq.symm
        refine ⟨.inr (.inl ⟨hdisk, noting_of_ne hother, fun k' hk' hlive hback => ?_⟩), hsame id hdisk⟩
        obtain ⟨r, hr, hbytes, -⟩ := hreap.backs hback hlive
        rw [hk'] at hr
        exact ⟨r, (get_insert_of_ne _ hid).trans hr, Nat.le_of_eq hbytes.symm⟩
  · refine ⟨s.memory, h.capacity, h.visual, fun id' => ?_⟩
    by_cases hne : id' = id
    · subst hne
      obtain ⟨kind, hsome⟩ := htaken.known
      exact ⟨.inl htaken.json, fun _ _ => mem_issuedBy_of_mem ((h.at_id id').files kind hsome)⟩
    · have hdisk : ∀ kind, d ⟨id', kind⟩ = s.disk ⟨id', kind⟩ := fun kind =>
        htaken.elsewhere _ hne
      have hother : ∀ k ∈ q.inserted t, k.id ≠ id' := by
        intro k hk
        rw [consumed_of_inserted hk] at hid
        cases hid
      exact ⟨.inr (.inl ⟨hdisk, noting_of_ne hother, fun k hk _ hback => hbacked k hk hback⟩),
        hsame id' hdisk⟩

section
variable {a : LoadAnswers}

/-- A record that is found: the one that was being inserted or one of the ledger, with all
its files, and there was room for it in memory. -/
theorem found_left (h : Sound codec s) (hclock : s.now ≤ t.now) (hwall : t.now ≤ a.wallNow)
    (hleft : LeftAt codec s q t d memory id)
    (hfound : found d (nowUnixMs a.wallNow) (q.noting t s.ledger) id = some k) :
    k.id = id ∧ Intact codec d k ∧ nowUnixMs a.wallNow < k.expiresMs ∧
      (∃ r, memory.get id = some r ∧ k.record.visualBytes ≤ r.visualBytes) ∧
        (q.inserted t = some k ∨ s.ledger id = some k) := by
  obtain ⟨hnoted, hcond⟩ := Option.filter_eq_some_iff.mp hfound
  rw [and_eq_true, decide_eq_true_iff] at hcond
  obtain ⟨hjson, hlive⟩ := hcond
  rcases hleft with hnone | ⟨hdisk, hledger, hroom⟩ | ⟨k', hk', rfl, hintact, hroom⟩
  · rw [hnone] at hjson
    cases hjson
  · rw [hledger] at hnoted
    have hid := ((h.at_id id).noted k hnoted).1
    have hms := nowUnixMs_mono hclock
    have hms' := nowUnixMs_mono hwall
    obtain ⟨hintact, hback⟩ := (h.at_id id).live k hnoted (by omega)
    exact ⟨hid, hintact.congr fun kind _ => by rw [hid, hdisk], hlive,
      hroom k hid (by omega) hback, .inr hnoted⟩
  · rw [noting_self hk'] at hnoted
    cases hnoted
    exact ⟨rfl, hintact, hlive, hroom, .inl hk'⟩

theorem loadable_of_left (h : Sound codec s) (hclock : s.now ≤ t.now) (hwall : t.now ≤ a.wallNow)
    (hcapacity : memory.size ≤ maxVerificationRecords)
    (hvisual : memory.total visualBytes ≤ maxVerifyTotalVisualBytes)
    (hleft : ∀ id, LeftAt codec s q t d memory id) :
    Loadable codec d (nowUnixMs a.wallNow) (found d (nowUnixMs a.wallNow) (q.noting t s.ledger))
      memory := by
  refine ⟨?_, ?_, ?_, hcapacity, hvisual⟩
  · intro id bytes hbytes
    have hsome : ∀ k, q.noting t s.ledger id = some k → nowUnixMs a.wallNow < k.expiresMs →
        (found d (nowUnixMs a.wallNow) (q.noting t s.ledger) id).isSome := by
      intro k hk hlive
      unfold found
      rw [hk, filter_some, if_pos (by simp [hbytes, hlive])]
      rfl
    rcases hleft id with hnone | ⟨hdisk, hledger, -⟩ | ⟨k, hk, rfl, hintact, -⟩
    · rw [hnone] at hbytes
      cases hbytes
    · rw [hdisk] at hbytes
      obtain ⟨k, hid, hremains, hcase⟩ := (h.at_id id).json bytes hbytes
      have hremains' : Remains codec d k :=
        hremains.congr (by rw [hid, hdisk]) (.inl (by rw [hid, hdisk]))
      by_cases hlive : nowUnixMs a.wallNow < k.expiresMs
      · rcases hcase with hk | hexpired
        · exact .inl (hsome k (hledger.trans hk) hlive)
        · have hms := nowUnixMs_mono (Nat.le_trans hclock hwall)
          omega
      · exact .inr ⟨k, hid, hremains', Nat.not_lt.mp hlive⟩
    · by_cases hlive : nowUnixMs a.wallNow < k.expiresMs
      · exact .inl (hsome k (noting_self hk) hlive)
      · exact .inr ⟨k, rfl, hintact.remains, Nat.not_lt.mp hlive⟩
  · intro id k hk
    obtain ⟨hid, hintact, hlive, -⟩ := found_left h hclock hwall (hleft id) hk
    exact ⟨hid, hintact, hlive⟩
  · intro id k hk
    obtain ⟨-, -, -, hroom, -⟩ := found_left h hclock hwall (hleft id) hk
    exact hroom

/-- **The load after a crash**: it succeeds and returns what is found. -/
theorem load_found (h : Sound codec s) (hq : s.Admits codec q t) (hwall : t.now ≤ a.wallNow)
    (hd : Touched codec q t s.memory s.disk d) (hlists : Lists a d) :
    ∃ records disk', loadRecords codec d a = .ok (records, disk') ∧
      (∀ id, records.get id =
        (found d (nowUnixMs a.wallNow) (q.noting t s.ledger) id).map (Kept.restored a)) ∧
      (a.wallNow ≤ a.now → Sound codec (s.recovered q t a records disk')) := by
  have hclock : s.now ≤ t.now := Nat.le_trans hq.clock t.reap_le_now
  obtain ⟨memory, hcapacity, hvisual, hleft⟩ := left_of_touched h hq hd
  have hloadable := loadable_of_left h hclock hwall hcapacity hvisual fun id => (hleft id).1
  obtain ⟨records, disk', hload, hrecords, hfiles, hkept⟩ := loadRecords_ok hloadable hlists
  refine ⟨records, disk', hload, hrecords, fun hnow => ?_⟩
  have horigin : ∀ id r, records.get id = some r → r.Active ∧
      ∃ r', memory.get id = some r' ∧ r.visualBytes ≤ r'.visualBytes := by
    intro id r hr
    rw [hrecords id, map_eq_some_iff] at hr
    obtain ⟨k, hk, rfl⟩ := hr
    obtain ⟨-, -, -, hroom, -⟩ := found_left h hclock hwall (hleft id).1 hk
    exact ⟨.inl rfl, hroom⟩
  refine ⟨?_, ?_, fun id r hr => (horigin id r hr).1, fun id => ?_⟩
  · have hlength : (records.entries.map Prod.fst).length ≤ memory.size := by
      apply memory.length_le_size records.nodup
      intro id hid
      obtain ⟨r, hr⟩ := Option.isSome_iff_exists.mp (records.get_isSome_iff.mpr hid)
      obtain ⟨-, r', hr', -⟩ := horigin id r hr
      rw [hr']
      rfl
    rw [length_map] at hlength
    exact Nat.le_trans hlength hcapacity
  · exact Nat.le_trans (memory.total_le_total _ fun id r hr => (horigin id r hr).2) hvisual
  have hledger : (s.recovered q t a records disk').ledger id =
      found d (nowUnixMs a.wallNow) (q.noting t s.ledger) id := by
    show (if (records.get id).isSome then q.noting t s.ledger id else none) = _
    rw [hrecords id, isSome_map]
    cases hfound : found d (nowUnixMs a.wallNow) (q.noting t s.ledger) id with
    | none => rfl
    | some k => exact (if_pos rfl).trans (Option.filter_eq_some_iff.mp hfound).1
  have hfrom : ∀ f bytes, disk' f = some bytes → d f = some bytes := by
    intro f bytes hbytes
    rcases hfiles f with heq | hnone
    · exact heq.symm.trans hbytes
    · rw [hnone] at hbytes
      cases hbytes
  have hissued : ∀ kind, (disk' ⟨id, kind⟩).isSome → id ∈ s.issuedBy q t := by
    intro kind hsome
    obtain ⟨bytes, hbytes⟩ := Option.isSome_iff_exists.mp hsome
    exact (hleft id).2 kind (by rw [hfrom _ bytes hbytes]; rfl)
  have hretired : id ∈ s.retired → id ∈ s.issuedBy q t := fun hid =>
    mem_issuedBy_of_mem ((h.at_id id).retired hid)
  have hremains : ∀ bytes, disk' ⟨id, .json⟩ = some bytes →
      (found d (nowUnixMs a.wallNow) (q.noting t s.ledger) id).isSome ∨
        ∃ k : Kept S V W, k.id = id ∧ Remains codec disk' k ∧ k.expiresMs ≤ nowUnixMs a.now := by
    intro bytes hbytes
    refine (hloadable.json id bytes (hfrom _ bytes hbytes)).imp_right ?_
    rintro ⟨k, rfl, hremains, hexpired⟩
    refine ⟨k, rfl, hremains.congr ?_ (hfiles _), Nat.le_trans hexpired (nowUnixMs_mono hnow)⟩
    rw [hbytes, hfrom _ bytes hbytes]
  cases hfound : found d (nowUnixMs a.wallNow) (q.noting t s.ledger) id with
  | none =>
    refine SoundAt.gone (hledger.trans hfound) hissued hretired fun bytes hbytes => ?_
    refine (hremains bytes hbytes).resolve_left fun hsome => ?_
    rw [hfound] at hsome
    cases hsome
  | some k =>
    obtain ⟨rfl, hintact, hlive, -, hwhence⟩ := found_left h hclock hwall (hleft id).1 hfound
    have hsome : (found d (nowUnixMs a.wallNow) (q.noting t s.ledger) k.id).isSome := by
      rw [hfound]
      rfl
    have hintact' : Intact codec disk' k := hintact.congr fun kind hkind => hkept _ kind hkind hsome
    have hone : ∀ k', (s.recovered q t a records disk').ledger k.id = some k' → k' = k := by
      intro k' hk'
      rw [hledger, hfound] at hk'
      exact (Option.some.inj hk').symm
    refine ⟨hissued, ?_, ?_, ?_, ?_, hretired⟩
    · intro k' hk'
      obtain rfl := hone k' hk'
      rcases hwhence with hinserted | hk
      · exact ⟨rfl, mem_issuedBy.mpr (.inl ⟨k', hinserted, rfl⟩), fun hr =>
          hq.fresh k' hinserted ((h.at_id _).retired hr)⟩
      · obtain ⟨-, hin, hnot⟩ := (h.at_id _).noted k' hk
        exact ⟨rfl, mem_issuedBy_of_mem hin, hnot⟩
    · intro k' hk'
      obtain rfl := hone k' hk'
      show k'.wallNow ≤ k'.now ∧ k'.now ≤ a.now
      rcases hwhence with hinserted | hk
      · obtain ⟨hkwall, hknow⟩ := Kept.clocks_of_inserted hinserted
        have hle := t.now_le
        omega
      · obtain ⟨hkwall, hknow⟩ := (h.at_id _).clocks k' hk
        omega
    · intro k' hk' _
      obtain rfl := hone k' hk'
      refine ⟨hintact', k'.restored a, (hrecords _).trans (by rw [hfound]; rfl), rfl, ?_⟩
      have hms : nowUnixMs a.wallNow ≤ a.wallNow / 1000000 := Nat.min_le_left _ _
      show k'.expiresMs * 1000000 ≤ a.now + (k'.expiresMs - nowUnixMs a.wallNow) * 1000000
      omega
    · intro bytes hbytes
      exact ⟨k, rfl, hintact'.remains, .inl (hledger.trans hfound)⟩

end

/-! ## What survives -/

theorem sound_step {l : VerifyEvent S V W} (h : Sound codec s) (hs : VerifyStep codec s l s') :
    Sound codec s' := by
  cases hs with
  | call hq => exact sound_after h hq
  | @crash q t n a records disk hq hwall hnow hlists hload =>
    have hd : Touched codec q t s.memory s.disk ((q.call codec t s.memory).cut n s.disk) :=
      (h.solo hq).cut (.inl rfl) n
    obtain ⟨records, disk', hload', -, hsound⟩ := load_found h hq hwall hd hlists
    rw [hload] at hload'
    cases hload'
    exact hsound hnow

theorem sound_run {tr : List (VerifyEvent S V W)} (h : Run (VerifyStep codec) (.start now) tr s) :
    Sound codec s :=
  h.invariant (I := Sound codec) (fun _ _ _ hI hs => sound_step hI hs) Sound.start

/-- The record is loaded at this time. -/
def Kept.unexpired (a : LoadAnswers) (k : Kept S V W) : Bool :=
  decide (nowUnixMs a.wallNow < k.expiresMs)

/-- The ledger at the time of the load. -/
def VerifyState.survivors (s : VerifyState S V W) (a : LoadAnswers) (id : String) :
    Option (VerificationRecord S V W) :=
  ((s.ledger id).filter (Kept.unexpired a)).map (Kept.restored a)

theorem found_cases (d : Disk) (a : LoadAnswers) (ledger : String → Option (Kept S V W))
    (id : String) : found d (nowUnixMs a.wallNow) ledger id = none ∨
      found d (nowUnixMs a.wallNow) ledger id = (ledger id).filter (Kept.unexpired a) := by
  unfold found
  by_cases hjson : (d ⟨id, .json⟩).isSome
  · rw [hjson]
    exact .inr rfl
  · rw [not_eq_true _ |>.mp hjson]
    simp

theorem found_untouched {a : LoadAnswers} (h : Sound codec s) (hclock : s.now ≤ t.now)
    (hwall : t.now ≤ a.wallNow) (hd : Touched codec q t s.memory s.disk d)
    (hinserted : ∀ k ∈ q.inserted t, k.id ≠ id) (hconsumed : q.consumed ≠ some id) :
    found d (nowUnixMs a.wallNow) (q.noting t s.ledger) id =
      (s.ledger id).filter (Kept.unexpired a) := by
  have hdisk : d ⟨id, .json⟩ = s.disk ⟨id, .json⟩ := by
    rcases hd with rfl | ⟨k, hk, -, helsewhere, -⟩ | ⟨id', hid', htaken⟩
    · rfl
    · exact helsewhere _ fun heq => hinserted k hk heq.symm
    · refine htaken.elsewhere _ fun heq => hconsumed ?_
      rw [hid']
      exact congrArg some heq.symm
  unfold found
  rw [noting_of_ne hinserted, hdisk]
  cases hledger : s.ledger id with
  | none => rfl
  | some k =>
    by_cases hlive : nowUnixMs a.wallNow < k.expiresMs
    · have hms := nowUnixMs_mono hclock
      have hms' := nowUnixMs_mono hwall
      obtain ⟨⟨bytes, -, -, hjson, -⟩, -⟩ := (h.at_id id).live k hledger (by omega)
      rw [((h.at_id id).noted k hledger).1] at hjson
      rw [hjson]
      rfl
    · rw [filter_some_neg (by simp [hlive]), filter_some_neg]
      exact decide_eq_false hlive

/-- **Trusted Verify records survive crashes.**  Memory keeps its bounds in every reachable
state.  Wherever a request is stopped, loading succeeds and returns what was acknowledged
and neither completed nor discarded nor expired, with what it was inserted with; only of
the request's own record it may be none, or the new one.  What was acknowledged as
completed or discarded is not loaded again.  The expiry is the persisted one, which is
not after the record's own and before it only by the rounding. -/
theorem crash_recovery {tr : List (VerifyEvent S V W)}
    (hrun : Run (VerifyStep codec) (.start now) tr s) :
    s.memory.size ≤ maxVerificationRecords ∧
      retainedVisualBytes s.memory ≤ maxVerifyTotalVisualBytes ∧
      ∀ (q : Request S V W) (t : Readings) (n : Nat) (a : LoadAnswers), s.Admits codec q t →
        t.now ≤ a.wallNow → Lists a ((q.call codec t s.memory).cut n s.disk) →
        ∃ records disk, loadRecords codec ((q.call codec t s.memory).cut n s.disk) a =
            .ok (records, disk) ∧
          ∀ id,
            ((∀ k ∈ q.inserted t, k.id ≠ id) → q.consumed ≠ some id →
              records.get id = s.survivors a id) ∧
            (q.consumed = some id → records.get id = none ∨ records.get id = s.survivors a id) ∧
            (∀ k, q.inserted t = some k → k.id = id → records.get id = none ∨
              records.get id = some (k.restored a) ∧ k.unexpired a = true) ∧
            (id ∈ s.retired → records.get id = none) ∧
            ∀ k, s.ledger id = some k →
              (k.unexpired a = true → a.wallNow < k.record.expiresAt) ∧
              (k.record.expiresAt + k.wallNow ≤ u64Max →
                a.wallNow + 2000000 + (k.now - k.wallNow) < k.record.expiresAt →
                  k.unexpired a = true) := by
  have h := sound_run hrun
  refine ⟨h.capacity, h.visual, fun q t n a hq hwall hlists => ?_⟩
  have hclock : s.now ≤ t.now := Nat.le_trans hq.clock t.reap_le_now
  have hd : Touched codec q t s.memory s.disk ((q.call codec t s.memory).cut n s.disk) :=
    (h.solo hq).cut (.inl rfl) n
  obtain ⟨memory, -, -, hleft⟩ := left_of_touched h hq hd
  obtain ⟨records, disk', hload, hrecords, -⟩ := load_found h hq hwall hd hlists
  refine ⟨records, disk', hload, fun id => ⟨?_, ?_, ?_, ?_, ?_⟩⟩
  · intro hinserted hconsumed
    rw [hrecords, found_untouched h hclock hwall hd hinserted hconsumed]
    rfl
  · intro hid
    have hinserted : ∀ k ∈ q.inserted t, k.id ≠ id := by
      intro k hk
      rw [consumed_of_inserted hk] at hid
      cases hid
    rw [hrecords]
    rcases found_cases _ a (q.noting t s.ledger) id with hnone | hall
    · exact .inl (by rw [hnone]; rfl)
    · refine .inr ?_
      rw [hall, noting_of_ne hinserted]
      rfl
  · rintro k hk rfl
    rw [hrecords]
    rcases found_cases _ a (q.noting t s.ledger) k.id with hnone | hall
    · exact .inl (by rw [hnone]; rfl)
    · rw [hall, noting_self hk]
      by_cases hlive : k.unexpired a = true
      · exact .inr ⟨by simp [hlive], hlive⟩
      · exact .inl (by simp [hlive])
  · intro hretired
    rw [hrecords]
    cases hfound : found _ (nowUnixMs a.wallNow) (q.noting t s.ledger) id with
    | none => rfl
    | some k =>
      obtain ⟨rfl, -, -, -, hk | hk⟩ := found_left h hclock hwall (hleft id).1 hfound
      · exact absurd ((h.at_id _).retired hretired) (hq.fresh k hk)
      · exact absurd hretired ((h.at_id _).noted k hk).2.2
  · intro k hk
    obtain ⟨hkwall, hknow⟩ := (h.at_id id).clocks k hk
    refine ⟨fun hlive => ?_, fun hrange hlate => ?_⟩
    · have hlt := lt_of_nowUnixMs_lt (of_decide_eq_true hlive)
      have hle := Kept.expiresMs_le hkwall (by omega)
      omega
    · have hle := Kept.le_expiresMs hrange
      have hms : nowUnixMs a.wallNow ≤ a.wallNow / 1000000 := Nat.min_le_left _ _
      refine decide_eq_true ?_
      omega

end

/-! ## A record of a millisecond and a half -/

section

def sampleFields : RecordFields Unit :=
  { verificationId := "lvv", proposalId := "lvp", sessionId := "s", reference := "@e1"
    canonicalRoute := "/", canonicalFile := "/p/a.tsx", projectRoot := "/p", displayFile := "a.tsx"
    sourceLine := 1, postimageSha256 := "h", instruction := "", semanticBefore := ⟨1, ()⟩
    scope := .semanticVisual }

def sampleRecord : VerificationRecord Unit Unit Unit :=
  { toRecordFields := sampleFields, visualBefore := some ⟨[137], ()⟩, wave9Preflight := some ()
    createdAt := 0, expiresAt := 1500000, status := .pending }

def samplePersisted : PersistedVerificationRecordV1 Unit Unit :=
  { toRecordFields := sampleFields, schemaVersion := 1, visualBefore := some ⟨"h", ()⟩
    createdAtUnixMs := 0, expiresAtUnixMs := 1 }

def sampleWave9 : PersistedWave9PreflightV1 Unit := ⟨1, "lvv", ()⟩

def sampleRecoveryCodec : RecoveryCodec Unit Unit Unit where
  sha256 _ := "h"
  validVerificationId id := id == "lvv"
  toVec r := if r = samplePersisted then .ok [0] else .error "unknown record"
  schemaVersion _ := .ok (some 1)
  fromV1 _ := .ok samplePersisted
  fromV2 _ := .error "unknown version"
  toVecWave9 r := if r = sampleWave9 then .ok [1] else .error "unknown context"
  fromSliceWave9 _ := .ok sampleWave9
  schemaVersion_toVec := by
    intro r bytes h
    split at h
    · rename_i heq
      rw [heq]
      rfl
    · cases h
  fromSliceWave9_toVec := by
    intro r bytes h
    split at h
    · rename_i heq
      rw [heq]
    · cases h

def allWritten : WriteOutcomes := ⟨true, true, true, true⟩

def allPersisted : PersistOutcomes :=
  { directory := true, looks := true, visual := allWritten, wave9Clean := true
    wave9 := allWritten, wave9Rename := true, wave9Undo := true, wave9UndoVisual := true
    metadataClean := true, metadata := allWritten, metadataRename := true, metadataUndo := true
    metadataUndoVisual := true, metadataUndoWave9 := true }

def allConsumed : ConsumeOutcomes := ⟨true, true, true, true, true⟩

/-- Inserted at the time 0. -/
def sampleInserted : VerifyState Unit Unit Unit :=
  VerifyState.after sampleRecoveryCodec (.start 0) (.insert sampleRecord allPersisted)
    ⟨0, 0, 0, Nat.le_refl _, Nat.le_refl _⟩

theorem sample_run : Run (VerifyStep sampleRecoveryCodec) (.start 0)
    [.call (.insert sampleRecord allPersisted) ⟨0, 0, 0, Nat.le_refl _, Nat.le_refl _⟩]
    sampleInserted := by
  refine Run.cons (.call ⟨Nat.le_refl _, ?_, ?_⟩) (Run.nil _)
  · rintro k ⟨⟩
    exact not_mem_nil
  · rintro k ⟨⟩
    exact ⟨rfl, fun _ _ => rfl⟩

/-- A listing of the sample's files. -/
theorem sample_lists {q : Request Unit Unit Unit} {t : Readings} {n : Nat} {a : LoadAnswers}
    (hq : sampleInserted.Admits sampleRecoveryCodec q t) (hissued : sampleInserted.issuedBy q t = ["lvv"])
    (hnodup : a.listing.Nodup) (hids : ∀ f ∈ a.listing, f.id = "lvv")
    (hkinds : ∀ kind, ⟨"lvv", kind⟩ ∈ a.listing ↔
      ((q.call sampleRecoveryCodec t sampleInserted.memory).cut n sampleInserted.disk
        ⟨"lvv", kind⟩).isSome) :
    Lists a ((q.call sampleRecoveryCodec t sampleInserted.memory).cut n sampleInserted.disk) := by
  have h := sound_run sample_run
  obtain ⟨memory, -, -, hleft⟩ := left_of_touched h hq ((h.solo hq).cut (.inl rfl) n)
  refine ⟨hnodup, fun f => ?_⟩
  obtain ⟨id, kind⟩ := f
  by_cases hid : id = "lvv"
  · rw [hid]
    exact hkinds kind
  · constructor
    · exact fun hmem => absurd (hids _ hmem) hid
    · intro hsome
      have hmem := (hleft id).2 kind hsome
      rw [hissued] at hmem
      exact absurd (mem_singleton.mp hmem) hid

/-- The process stops in a discard, after the rename. -/
theorem crash_recovery_sample : ∃ records disk, loadRecords sampleRecoveryCodec
        (((Request.discard "lvv" allConsumed).call sampleRecoveryCodec
          ⟨0, 0, 0, Nat.le_refl _, Nat.le_refl _⟩ sampleInserted.memory).cut 1 sampleInserted.disk)
        ⟨0, 0, fun _ => true, [⟨"lvv", .png⟩, ⟨"lvv", .wave9⟩, ⟨"lvv", .consumed⟩]⟩ =
          .ok (records, disk) ∧
      (records.get "lvv" = none ∨ records.get "lvv" = sampleInserted.survivors
        ⟨0, 0, fun _ => true, [⟨"lvv", .png⟩, ⟨"lvv", .wave9⟩, ⟨"lvv", .consumed⟩]⟩ "lvv") := by
  have hq : sampleInserted.Admits sampleRecoveryCodec (.discard "lvv" allConsumed)
      ⟨0, 0, 0, Nat.le_refl _, Nat.le_refl _⟩ := ⟨Nat.le_refl _, nofun, nofun⟩
  obtain ⟨records, disk, hload, h⟩ := (crash_recovery sample_run).2.2 (.discard "lvv" allConsumed)
    ⟨0, 0, 0, Nat.le_refl _, Nat.le_refl _⟩ 1
    ⟨0, 0, fun _ => true, [⟨"lvv", .png⟩, ⟨"lvv", .wave9⟩, ⟨"lvv", .consumed⟩]⟩ hq (Nat.le_refl _)
    (sample_lists hq rfl (by decide) (by decide) (by intro kind; cases kind <;> decide +kernel))
  exact ⟨records, disk, hload, (h "lvv").2.1 rfl⟩

/-- Past its persisted expiry and before its own, an acknowledged record is not loaded. -/
theorem survivor_dropped : ¬ ∀ (codec : RecoveryCodec Unit Unit Unit) (now : Nat)
    (tr : List (VerifyEvent Unit Unit Unit)) (s : VerifyState Unit Unit Unit),
    Run (VerifyStep codec) (.start now) tr s →
      ∀ (q : Request Unit Unit Unit) (t : Readings) (n : Nat) (a : LoadAnswers), s.Admits codec q t →
        t.now ≤ a.wallNow → a.wallNow ≤ a.now →
        Lists a ((q.call codec t s.memory).cut n s.disk) →
        ∀ records disk, loadRecords codec ((q.call codec t s.memory).cut n s.disk) a =
            .ok (records, disk) →
          ∀ id k, (∀ k ∈ q.inserted t, k.id ≠ id) → q.consumed ≠ some id →
            s.ledger id = some k → a.wallNow < k.record.expiresAt →
              (records.get id).isSome := by
  intro hall
  have hq : sampleInserted.Admits sampleRecoveryCodec .reapExpired ⟨0, 0, 0, Nat.le_refl _, Nat.le_refl _⟩ :=
    ⟨Nat.le_refl _, nofun, nofun⟩
  let a : LoadAnswers := ⟨1200000, 1200000, fun _ => true,
    [⟨"lvv", .png⟩, ⟨"lvv", .wave9⟩, ⟨"lvv", .json⟩]⟩
  have hlists : Lists a ((Request.reapExpired.call sampleRecoveryCodec
      ⟨0, 0, 0, Nat.le_refl _, Nat.le_refl _⟩ sampleInserted.memory).cut 0 sampleInserted.disk) :=
    sample_lists hq rfl (by decide) (by decide) (by intro kind; cases kind <;> decide +kernel)
  obtain ⟨records, disk, hload, hrecords⟩ := load_found (sound_run sample_run) hq
    (show 0 ≤ a.wallNow from Nat.zero_le _) (.inl rfl) hlists
  have hsome := hall _ 0 _ _ sample_run .reapExpired _ 0 a hq (Nat.zero_le _) (Nat.le_refl _)
    hlists records disk hload "lvv" ⟨sampleRecord, 0, 0⟩ nofun nofun rfl (by decide)
  rw [hrecords.1 "lvv"] at hsome
  revert hsome
  decide +kernel

end
end Localview.TrustedVerify
