import Localview.KeyedFold
import Localview.SessionManager

/-! # Session lifecycles

What `reconcile` reports of a session, read over a whole run.  `ReconcileEffect` is all
that one call can do to a session, with the events it reports of it; from there, the
events of an id are lifetimes one after another (`Lifetimes`): created, disconnected and
reconnected some times, disconnected and removed.  The last one goes on to where the
session is.  An id may have several lifetimes, for the identity registry gives a
returning project the id it had.

`set_preview_visible` makes a session active or hidden whether or not it is connected.
So what is said here is said of the ids whose preview is set only while they are
connected or unknown.
-/
namespace Localview
open StateRun List AssocMap SessionState

/-! ## Events -/

/-- What happened to a session. -/
inductive SessionEvent
  | created
  | reconnected
  | disconnected
  | removed
  deriving DecidableEq

/-- What a result reports of an id. -/
def ReconcileResult.events (result : ReconcileResult) (id : SessionId) : List SessionEvent :=
  List.replicate (result.created.count id) SessionEvent.created ++
    List.replicate (result.reconnected.count id) SessionEvent.reconnected ++
    List.replicate (result.disconnected.count id) SessionEvent.disconnected ++
    List.replicate (result.removed.count id) SessionEvent.removed

/-- What an answer reports of an id. -/
def ManagerAnswer.events (id : SessionId) : ManagerAnswer → List SessionEvent
  | .reconciled result => result.events id
  | .set _ => []

def reported (id : SessionId) (tr : List (ManagerCall × ManagerAnswer)) : List SessionEvent :=
  tr.flatMap fun label => label.2.events id

theorem reported_snoc {id : SessionId} {tr : List (ManagerCall × ManagerAnswer)}
    {label : ManagerCall × ManagerAnswer} :
    reported id (tr ++ [label]) = reported id tr ++ label.2.events id := by
  rw [reported, flatMap_append, flatMap_singleton]
  rfl

section
variable {result : ReconcileResult} {id id' : SessionId}

open ReconcileResult

/-- A push for another id is not reported of this one. -/
theorem events_push_other (h : id' ≠ id) :
    (result.pushCreated id').events id = result.events id ∧
    (result.pushReconnected id').events id = result.events id ∧
    (result.pushDisconnected id').events id = result.events id ∧
    (result.pushRemoved id').events id = result.events id := by
  have hcount : ∀ l : List SessionId, (l ++ [id']).count id = l.count id := by
    intro l
    rw [count_append, count_singleton, if_neg (by simpa using h), Nat.add_zero]
  simp only [events, pushCreated, pushReconnected,
    pushDisconnected, pushRemoved, hcount, and_self]

/-- The first push for an id is all that is reported of it. -/
theorem events_push_self (h : result.events id = []) :
    (result.pushCreated id).events id = [.created] ∧
    (result.pushReconnected id).events id = [.reconnected] ∧
    (result.pushDisconnected id).events id = [.disconnected] ∧
    (result.pushRemoved id).events id = [.removed] := by
  simp only [events, append_eq_nil_iff, replicate_eq_nil_iff] at h
  obtain ⟨⟨⟨hcreated, hreconnected⟩, hdisconnected⟩, hremoved⟩ := h
  simp [events, pushCreated, pushReconnected,
    pushDisconnected, pushRemoved, hcreated, hreconnected,
    hdisconnected, hremoved]

end

/-! ## What a reconcile does to a session -/

/-- All that a `reconcile` can do to what is kept under an id, and what it reports. -/
inductive ReconcileEffect (now grace : Int) :
    Option Session → List SessionEvent → Option Session → Prop
  | absent : ReconcileEffect now grace none [] none
  | created (item : PreparedDiscovery) :
      ReconcileEffect now grace none [.created] (some (item.newSession now))
  | seenAgain (session : Session) (item : PreparedDiscovery) :
      ReconcileEffect now grace (some session)
        (if session.reconnects then [.reconnected] else [])
        (some (session.seenAgain item now))
  | disconnected (session : Session) : session.disconnectedAt = none →
      ReconcileEffect now grace (some session) [.disconnected]
        (some { session with disconnectedAt := some now, status := .disconnected })
  | waiting (session : Session) (since : Int) : session.disconnectedAt = some since →
      now - since < grace → ReconcileEffect now grace (some session) [] (some session)
  | removed (session : Session) (since : Int) : session.disconnectedAt = some since →
      grace ≤ now - since → ReconcileEffect now grace (some session) [.removed] none

/-- What is kept under an id, and what is reported of it so far. -/
def observed (id : SessionId) (acc : SessionState × ReconcileResult) :
    Option Session × List SessionEvent :=
  (acc.1.sessions.get id, acc.2.events id)

section
variable {now grace : Int} {id : SessionId} {acc : SessionState × ReconcileResult}
  {seen : List SessionId}

/-- Assignments of other ids. -/
theorem observed_applyAssignment_other {assignment : PreparedDiscovery × SessionId}
    (h : assignment.2 ≠ id) : observed id (applyAssignment now acc assignment) = observed id acc := by
  obtain ⟨state, result⟩ := acc
  obtain ⟨item, id'⟩ := assignment
  obtain ⟨hcreated, hreconnected, -, -⟩ := @events_push_other result _ _ h
  simp only [applyAssignment]
  cases state.sessions.get id' with
  | none =>
    simp only [observed, put, get_insert_of_ne _ (Ne.symm h), hcreated]
  | some session =>
    by_cases hreconnects : session.reconnects = true
    · simp only [if_pos hreconnects, observed, put,
        get_insert_of_ne _ (Ne.symm h), hreconnected]
    · simp only [if_neg hreconnects, observed, put,
        get_insert_of_ne _ (Ne.symm h)]

/-- The sweep at other ids. -/
theorem observed_applySweep_other {id' : SessionId} (h : id' ≠ id) :
    observed id (applySweep now grace seen acc id') = observed id acc := by
  obtain ⟨state, result⟩ := acc
  obtain ⟨-, -, hdisconnected, hremoved⟩ := @events_push_other result _ _ h
  simp only [applySweep]
  by_cases hseen : seen.contains id' = true
  · rw [if_pos hseen]
  · rw [if_neg hseen]
    cases state.sessions.get id' with
    | none => rfl
    | some session =>
      cases hsince : session.disconnectedAt with
      | none =>
        simp only [hsince, observed, putSession,
          get_insert_of_ne _ (Ne.symm h), hdisconnected]
      | some since =>
        simp only [hsince]
        by_cases hover : grace ≤ now - since
        · simp only [if_pos hover, observed, remove,
            get_erase_of_ne _ (Ne.symm h), hremoved]
        · rw [if_neg hover]

theorem applyAssignment_effect (now grace : Int) (item : PreparedDiscovery) (h : acc.2.events id = []) :
    ReconcileEffect now grace (acc.1.sessions.get id)
      (observed id (applyAssignment now acc (item, id))).2
      (observed id (applyAssignment now acc (item, id))).1 := by
  obtain ⟨state, result⟩ := acc
  obtain ⟨hcreated, hreconnected, -, -⟩ := events_push_self h
  simp only [applyAssignment]
  cases hget : state.sessions.get id with
  | none =>
    simp only [observed, put, get_insert_self, hcreated]
    exact .created item
  | some session =>
    have heffect := @ReconcileEffect.seenAgain now grace session item
    by_cases hreconnects : session.reconnects = true
    · simp only [if_pos hreconnects, observed, put, get_insert_self,
        hreconnected]
      rwa [if_pos hreconnects] at heffect
    · simp only [if_neg hreconnects, observed, put, get_insert_self]
      rw [if_neg hreconnects] at heffect
      simp only at h
      rwa [h]

theorem applySweep_effect (now grace : Int) (hseen : id ∉ seen) (h : acc.2.events id = []) :
    ReconcileEffect now grace (acc.1.sessions.get id)
      (observed id (applySweep now grace seen acc id)).2
      (observed id (applySweep now grace seen acc id)).1 := by
  obtain ⟨state, result⟩ := acc
  obtain ⟨-, -, hdisconnected, hremoved⟩ := events_push_self h
  have hnot : ¬ seen.contains id = true := by
    rw [contains_eq_mem, decide_eq_true_iff]
    exact hseen
  simp only at h
  simp only [applySweep, if_neg hnot]
  cases hget : state.sessions.get id with
  | none =>
    simp only [observed, hget, h]
    exact .absent
  | some session =>
    cases hsince : session.disconnectedAt with
    | none =>
      simp only [hsince, observed, putSession, get_insert_self, hdisconnected]
      exact .disconnected session hsince
    | some since =>
      simp only [hsince]
      by_cases hover : grace ≤ now - since
      · simp only [if_pos hover, observed, remove, get_erase_self, hremoved]
        exact .removed session since hsince hover
      · simp only [if_neg hover, observed, hget, h]
        exact .waiting session since hsince (by omega)

end

section
variable (state : SessionState) (grace : Nat) (now : Int) {prepared : List PreparedDiscovery}
  {assignments ids : List SessionId} (id : SessionId)

/-- The first loop at an id that is assigned, and at one that is not. -/
theorem observed_applyAssignments (hlength : assignments.length = prepared.length)
    (hnodup : assignments.Nodup) :
    (id ∈ assignments → ReconcileEffect now (graceDuration grace) (state.sessions.get id)
      (observed id (applyAssignments state prepared assignments now)).2
      (observed id (applyAssignments state prepared assignments now)).1) ∧
    (id ∉ assignments → observed id (applyAssignments state prepared assignments now) =
      (state.sessions.get id, [])) := by
  have hkeys : (prepared.zip assignments).map Prod.snd = assignments :=
    map_snd_zip (by omega)
  have hframe : ∀ acc assignment, Prod.snd assignment ≠ id →
      observed id (applyAssignment now acc assignment) = observed id acc :=
    fun _ _ h => observed_applyAssignment_other h
  constructor
  · intro hassigned
    rw [← hkeys] at hassigned
    obtain ⟨⟨item, id'⟩, hmem, hid⟩ := mem_map.mp hassigned
    obtain ⟨t, ht, hloop⟩ := KeyedFold.foldl_at Prod.snd (observed id) hframe
      (s := (state, .empty)) (hkeys.symm ▸ hnodup) hmem hid
    obtain rfl : id' = id := hid
    have hget : t.1.sessions.get id' = state.sessions.get id' := congrArg Prod.fst ht
    have heffect := applyAssignment_effect now (graceDuration grace) item
      (congrArg Prod.snd ht)
    rw [hget] at heffect
    rw [applyAssignments, hloop]
    exact heffect
  · intro hassigned
    exact KeyedFold.foldl_frame Prod.snd (observed id) hframe (hkeys.symm ▸ hassigned)

theorem observed_sweep (assignments : List SessionId) {acc : SessionState × ReconcileResult}
    (hids : acc.1.Lists ids) :
    (id ∈ assignments →
      observed id (ids.foldl (applySweep now (graceDuration grace) assignments) acc) =
        observed id acc) ∧
    (id ∉ assignments → acc.2.events id = [] →
      ReconcileEffect now (graceDuration grace) (acc.1.sessions.get id)
        (observed id (ids.foldl (applySweep now (graceDuration grace) assignments) acc)).2
        (observed id (ids.foldl (applySweep now (graceDuration grace) assignments) acc)).1) := by
  have hnodup : (ids.map fun key => key).Nodup := by
    rw [map_id']
    exact hids.nodup_iff.mpr acc.1.sessions.nodup
  have hframe : ∀ acc key, key ≠ id →
      observed id (applySweep now (graceDuration grace) assignments acc key) = observed id acc :=
    fun _ _ h => observed_applySweep_other h
  by_cases hlisted : id ∈ ids
  · obtain ⟨t, ht, hloop⟩ := KeyedFold.foldl_at (fun key => key) (observed id) hframe
      (s := acc) hnodup hlisted rfl
    rw [hloop]
    constructor
    · intro hassigned
      rw [applySweep, if_pos (by simpa using hassigned)]
      exact ht
    · intro hassigned hnone
      have hget : t.1.sessions.get id = acc.1.sessions.get id := congrArg Prod.fst ht
      have hevents : t.2.events id = [] := (congrArg Prod.snd ht).trans hnone
      have heffect := applySweep_effect now (graceDuration grace) hassigned hevents
      rwa [hget] at heffect
  · have hloop : observed id (ids.foldl (applySweep now (graceDuration grace) assignments) acc) =
        observed id acc :=
      KeyedFold.foldl_frame (fun key => key) (observed id) hframe (by rwa [map_id'])
    refine ⟨fun _ => hloop, fun _ hnone => ?_⟩
    -- an id that is not listed has no session
    have hget : acc.1.sessions.get id = none := by
      rw [← Option.not_isSome_iff_eq_none, get_isSome_iff]
      exact fun hmem => hlisted (hids.mem_iff.mpr hmem)
    rw [hloop]
    simp only [observed, hget, hnone]
    exact .absent

/-- **What a reconcile does to each session**, and what it reports of it. -/
theorem applyReconciliation_effect (hlength : assignments.length = prepared.length)
    (hnodup : assignments.Nodup)
    (hids : (applyAssignments state prepared assignments now).1.Lists ids) :
    ReconcileEffect now (graceDuration grace) (state.sessions.get id)
      ((applyReconciliation state grace prepared assignments ids now).2.events id)
      ((applyReconciliation state grace prepared assignments ids now).1.sessions.get id) := by
  obtain ⟨hassignment, hother⟩ :=
    observed_applyAssignments state grace now id hlength hnodup
  obtain ⟨hpassed, hswept⟩ :=
    observed_sweep grace now id assignments hids
  by_cases hassigned : id ∈ assignments
  · have heffect := hassignment hassigned
    rw [← hpassed hassigned] at heffect
    exact heffect
  · have hsame := hother hassigned
    have heffect := hswept hassigned (congrArg Prod.snd hsame)
    have hget : (applyAssignments state prepared assignments now).1.sessions.get id =
        state.sessions.get id := congrArg Prod.fst hsame
    rw [hget] at heffect
    exact heffect

end

/-! ## Lifetimes -/

/-- Where a session is. -/
inductive Presence
  | absent
  | connected
  | disconnected

def presence : Option Session → Presence
  | none => .absent
  | some session => if session.status = .disconnected then .disconnected else .connected

/-- Some disconnections, each with its reconnection. -/
def interruptions (n : Nat) : List SessionEvent :=
  (List.replicate n [.disconnected, .reconnected]).flatten

/-- A session's events from its creation to its removal. -/
def lifetime (n : Nat) : List SessionEvent :=
  .created :: interruptions n ++ [.disconnected, .removed]

/-- The events of a lifetime that has not come to its end. -/
inductive Ongoing : Presence → List SessionEvent → Prop
  | absent : Ongoing .absent []
  | connected (n : Nat) : Ongoing .connected (.created :: interruptions n)
  | disconnected (n : Nat) :
      Ongoing .disconnected (.created :: interruptions n ++ [.disconnected])

/-- Lifetimes one after another, the last up to where the session is. -/
def Lifetimes (word : List SessionEvent) (p : Presence) : Prop :=
  ∃ (past : List Nat) (current : List SessionEvent),
    word = (past.map lifetime).flatten ++ current ∧ Ongoing p current

section
variable {word : List SessionEvent}

theorem interruptions_succ (n : Nat) :
    interruptions (n + 1) = interruptions n ++ [.disconnected, .reconnected] := by
  rw [interruptions, replicate_succ', flatten_append, flatten_singleton]
  rfl

theorem Lifetimes.created (h : Lifetimes word .absent) :
    Lifetimes (word ++ [.created]) .connected := by
  obtain ⟨past, _, rfl, hongoing⟩ := h
  cases hongoing
  exact ⟨past, [.created], by rw [append_nil], .connected 0⟩

theorem Lifetimes.disconnected (h : Lifetimes word .connected) :
    Lifetimes (word ++ [.disconnected]) .disconnected := by
  obtain ⟨past, _, rfl, hongoing⟩ := h
  cases hongoing with
  | connected n => exact ⟨past, _, append_assoc _ _ _, .disconnected n⟩

theorem Lifetimes.reconnected (h : Lifetimes word .disconnected) :
    Lifetimes (word ++ [.reconnected]) .connected := by
  obtain ⟨past, _, rfl, hongoing⟩ := h
  cases hongoing with
  | disconnected n =>
    refine ⟨past, _, append_assoc _ _ _, ?_⟩
    have hmore := Ongoing.connected (n + 1)
    rw [interruptions_succ] at hmore
    simpa using hmore

theorem Lifetimes.removed (h : Lifetimes word .disconnected) :
    Lifetimes (word ++ [.removed]) .absent := by
  obtain ⟨past, _, rfl, hongoing⟩ := h
  cases hongoing with
  | disconnected n => exact ⟨past ++ [n], [], by simp [lifetime], .absent⟩

end

/-! ## Runs -/

/-- `disconnected_at` is set while a session is disconnected, and only then. -/
def Accounted (kept : Option Session) : Prop :=
  ∀ session, kept = some session →
    (session.disconnectedAt.isSome ↔ session.status = .disconnected)

section
variable {now grace : Int} {kept kept' : Option Session} {events word : List SessionEvent}

/-- A disconnected session that is accounted for is reported when it is seen again. -/
theorem reconnects_iff {session : Session} (h : Accounted (some session)) :
    session.reconnects = true ↔ session.status = .disconnected := by
  have hiff := h session rfl
  rw [Session.reconnects, decide_eq_true_iff]
  constructor
  · rintro ⟨-, hsince⟩
    exact hiff.mp hsince
  · intro hstatus
    exact ⟨.inl hstatus, hiff.mpr hstatus⟩

theorem presence_of_status {session : Session} (h : session.status ≠ .disconnected) :
    presence (some session) = .connected := if_neg h

theorem presence_of_disconnected {session : Session} (h : session.status = .disconnected) :
    presence (some session) = .disconnected := if_pos h

/-- One reconcile carries the lifetimes on. -/
theorem ReconcileEffect.lifetimes (h : ReconcileEffect now grace kept events kept')
    (haccounted : Accounted kept) (hword : Lifetimes word (presence kept)) :
    Lifetimes (word ++ events) (presence kept') ∧ Accounted kept' := by
  cases h with
  | absent =>
    rw [append_nil]
    exact ⟨hword, haccounted⟩
  | created item =>
    refine ⟨hword.created, fun session hsession => ?_⟩
    cases hsession
    simp [PreparedDiscovery.newSession]
  | seenAgain session item =>
    have hstatus : (session.seenAgain item now).status ≠ .disconnected := by
      rw [Session.seenAgain]
      by_cases hvisible : session.previewVisible = true
      · simp [hvisible]
      · simp [hvisible]
    constructor
    · rw [presence_of_status hstatus]
      -- reported if and only if the session was disconnected
      by_cases hreconnects : session.reconnects = true
      · rw [if_pos hreconnects]
        rw [presence_of_disconnected ((reconnects_iff haccounted).mp hreconnects)] at hword
        exact hword.reconnected
      · rw [if_neg hreconnects, append_nil]
        rw [presence_of_status (mt (reconnects_iff haccounted).mpr hreconnects)] at hword
        exact hword
    · intro session' hsession
      cases hsession
      simp only [hstatus, iff_false]
      simp [Session.seenAgain]
  | disconnected session hsince =>
    have hstatus : session.status ≠ .disconnected := by
      intro hstatus
      have hsome := (haccounted session rfl).mpr hstatus
      rw [hsince] at hsome
      cases hsome
    rw [presence_of_status hstatus] at hword
    refine ⟨hword.disconnected, fun session' hsession => ?_⟩
    cases hsession
    simp
  | waiting session since hsince hyoung =>
    rw [append_nil]
    exact ⟨hword, haccounted⟩
  | removed session since hsince hover =>
    have hstatus : session.status = .disconnected :=
      (haccounted session rfl).mp (by rw [hsince]; rfl)
    rw [presence_of_disconnected hstatus] at hword
    exact ⟨hword.removed, fun session' hsession => by cases hsession⟩

end

section
variable {codec : RegistryCodec} {flavor : PathFlavor} {manager manager' : SessionManager}
  {label : ManagerCall × ManagerAnswer}

/-- What a call does to each session: a reconcile, or a preview that is set. -/
theorem managerStep_cases (h : ManagerStep codec flavor manager label manager') (id : SessionId) :
    (∃ now grace, ReconcileEffect now grace (manager.state.sessions.get id) (label.2.events id)
      (manager'.state.sessions.get id)) ∨
    (∃ id' visible, label.1 = .setPreviewVisible id' visible ∧ label.2.events id = [] ∧
      manager'.state = (manager.state.setPreviewVisible id' visible).1) := by
  obtain ⟨call, answer⟩ := label
  obtain ⟨hfits, hcall⟩ := h
  cases call with
  | reconcile discovered now surroundings =>
    obtain ⟨⟨assignments, resolver⟩, hassigned, heq⟩ := Option.map_eq_some_iff.mp hcall
    cases heq
    obtain ⟨hlength, hnodup, -⟩ := resolveAssignments_nodup hassigned
    exact .inl ⟨now, _, applyReconciliation_effect manager.state manager.grace now id hlength hnodup
      (hfits.2 _ hassigned)⟩
  | setPreviewVisible id' visible =>
    cases hcall
    exact .inr ⟨id', visible, rfl, rfl, rfl⟩

def PreviewWhileConnected (id : SessionId) (manager : SessionManager)
    (label : ManagerCall × ManagerAnswer) : Prop :=
  ∀ visible, label.1 = .setPreviewVisible id visible →
    presence (manager.state.sessions.get id) ≠ .disconnected

/-- A preview that is set of another session, or of a connected one, changes neither
whether it is connected nor what is accounted for. -/
theorem setPreviewVisible_presence {state : SessionState} {id id' : SessionId} (visible : Bool)
    (hconnected : id' = id → presence (state.sessions.get id) ≠ .disconnected)
    (haccounted : Accounted (state.sessions.get id)) :
    presence ((state.setPreviewVisible id' visible).1.sessions.get id) =
        presence (state.sessions.get id) ∧
      Accounted ((state.setPreviewVisible id' visible).1.sessions.get id) := by
  rw [setPreviewVisible]
  cases hget : state.sessions.get id' with
  | none => exact ⟨rfl, haccounted⟩
  | some session =>
    by_cases hid : id' = id
    · subst hid
      have hstatus : session.status ≠ .disconnected := by
        intro hstatus
        refine hconnected rfl ?_
        rw [hget]
        exact presence_of_disconnected hstatus
      rw [hget] at haccounted
      have hsince : ¬ session.disconnectedAt.isSome :=
        fun hsince => hstatus ((haccounted session rfl).mp hsince)
      have hnew : (if visible ∨ session.status = .active then SessionStatus.active
          else .hidden) ≠ .disconnected := by
        split <;> decide
      simp only [putSession, get_insert_self]
      refine ⟨?_, fun session' hsession => ?_⟩
      · rw [hget, presence_of_status hstatus]
        exact if_neg hnew
      · cases hsession
        exact ⟨fun hsome => absurd hsome hsince, fun heq => absurd heq hnew⟩
    · simp only [putSession, get_insert_of_ne _ (Ne.symm hid)]
      exact ⟨trivial, haccounted⟩

end

/-- **Session lifecycles.**  In every run in which no preview of a session is set while it
is disconnected, its events are lifetimes one after another, up to where it is; and
`disconnected_at` is set exactly while it is disconnected. -/
theorem session_lifecycle {codec : RegistryCodec} {flavor : PathFlavor} {grace : Nat}
    {resolver : Option SessionIdentityResolver} {tr : List (ManagerCall × ManagerAnswer)}
    {manager : SessionManager}
    (hrun : Run (ManagerStep codec flavor) (.new grace resolver) tr manager) (id : SessionId)
    (hpreview : Along (ManagerStep codec flavor) (PreviewWhileConnected id)
      (.new grace resolver) tr) :
    Lifetimes (reported id tr) (presence (manager.state.sessions.get id)) ∧
      ∀ session, manager.state.sessions.get id = some session →
        (session.disconnectedAt.isSome ↔ session.status = .disconnected) := by
  refine hrun.forward_induction (P := fun tr manager =>
    Along (ManagerStep codec flavor) (PreviewWhileConnected id) (.new grace resolver) tr →
      Lifetimes (reported id tr) (presence (manager.state.sessions.get id)) ∧
        Accounted (manager.state.sessions.get id)) ?_ ?_ hpreview
  · intro _
    exact ⟨⟨[], [], rfl, .absent⟩, fun session hsession => by cases hsession⟩
  · intro tr manager label manager' hrun ih hstep hpreview
    obtain ⟨hword, haccounted⟩ := ih hpreview.left
    rw [reported_snoc]
    rcases managerStep_cases hstep id with ⟨now, grace, heffect⟩ |
      ⟨id', visible, hlabel, hnone, hstate⟩
    · exact heffect.lifetimes haccounted hword
    · have hconnected : id' = id → presence (manager.state.sessions.get id) ≠ .disconnected := by
        rintro rfl
        exact hpreview.last hrun visible hlabel
      obtain ⟨hpresence, hafter⟩ := setPreviewVisible_presence visible hconnected haccounted
      rw [hnone, append_nil, hstate, hpresence]
      exact ⟨hword, hafter⟩

/-! ### A project that returns, and a preview of a server that is gone -/

/-- The hash of one project. -/
def oneProject : ProjectHost := ⟨id, fun _ _ => 1⟩

/-- The one project's server. -/
def viteServer : DiscoveredServer :=
  { candidate := { endpoint := ⟨"127.0.0.1", 5173, "http"⟩, command := some "vite", cwd := some "/a" }
    kind := .frontendDevServer }

/-- A resolver that has the project on record. -/
def knownProject : SessionIdentityResolver :=
  ⟨.healthy, none, AssocMap.empty.insert ⟨.project "/a", .frontendDevServer⟩ 7⟩

def reconcileNow (manager : SessionManager) (discovered : List DiscoveredServer) (now : Int)
    (ids : List SessionId) : ManagerCall :=
  .reconcile discovered now ⟨manager.state, oneProject, fun _ => ⟨[], ⟨[], [], .done⟩⟩, ids⟩

def SessionManager.after (manager : SessionManager) (call : ManagerCall) : SessionManager :=
  ((manager.call unwrittenCodec .unix call).map Prod.snd).getD manager

theorem step_after {manager : SessionManager} {call : ManagerCall} {answer : ManagerAnswer}
    (hfits : manager.Fits unwrittenCodec .unix call)
    (hcall : (manager.call unwrittenCodec .unix call).map Prod.fst = some answer) :
    ManagerStep unwrittenCodec .unix manager (call, answer) (manager.after call) := by
  obtain ⟨⟨answer', manager'⟩, hsome, rfl⟩ := Option.map_eq_some_iff.mp hcall
  refine ⟨hfits, ?_⟩
  rw [SessionManager.after, hsome]
  rfl

theorem fits_reconcileNow {manager : SessionManager} {discovered : List DiscoveredServer}
    {now : Int} {ids : List SessionId}
    (h : (manager.assignments unwrittenCodec .unix oneProject manager.state discovered
      fun _ => ⟨[], ⟨[], [], .done⟩⟩).all (fun assigned => decide ((applyAssignments manager.state
        (prepareDiscoveryBatch oneProject .unix discovered) assigned.1 now).1.Lists ids)) = true) :
    manager.Fits unwrittenCodec .unix (reconcileNow manager discovered now ids) := by
  refine ⟨SnapshotOf.refl _, fun assigned hassigned => ?_⟩
  simp only at hassigned
  rw [hassigned, Option.all_some] at h
  exact of_decide_eq_true h

/-- The project's server is found, a second later it is gone, then its session is
removed, and then it is back. -/
def projectKnown : SessionManager := .new 1000000000 (some knownProject)
def findProject : ManagerCall := reconcileNow projectKnown [viteServer] 0 [7]
def projectFound : SessionManager := projectKnown.after findProject
def loseProject : ManagerCall := reconcileNow projectFound [] 1000000000 [7]
def projectLost : SessionManager := projectFound.after loseProject
def missProject : ManagerCall := reconcileNow projectLost [] 3000000000 [7]
def projectMissed : SessionManager := projectLost.after missProject
def findProjectAgain : ManagerCall := reconcileNow projectMissed [viteServer] 4000000000 [7]

theorem run_projectLost :
    Run (ManagerStep unwrittenCodec .unix) projectKnown
      [(findProject, .reconciled ⟨[7], [], [], []⟩), (loseProject, .reconciled ⟨[], [], [7], []⟩)]
      projectLost := by
  refine Run.cons (step_after (fits_reconcileNow ?_) ?_)
    (Run.cons (step_after (fits_reconcileNow ?_) ?_) (Run.nil _))
  all_goals decide +kernel

theorem run_projectBack :
    Run (ManagerStep unwrittenCodec .unix) projectKnown
      ([(findProject, .reconciled ⟨[7], [], [], []⟩), (loseProject, .reconciled ⟨[], [], [7], []⟩)] ++
        [(missProject, .reconciled ⟨[], [], [], [7]⟩),
          (findProjectAgain, .reconciled ⟨[7], [], [], []⟩)])
      (projectMissed.after findProjectAgain) := by
  refine Run.append_iff.mpr ⟨projectLost, run_projectLost, ?_⟩
  refine Run.cons (step_after (fits_reconcileNow ?_) ?_)
    (Run.cons (step_after (fits_reconcileNow ?_) ?_) (Run.nil _))
  all_goals decide +kernel

/-- At most one lifetime, its end left out in part or not. -/
def OneLifetime (word : List SessionEvent) : Prop :=
  ∃ (n : Nat) (isDisconnected isRemoved : Bool), word = .created :: interruptions n ++
    (if isDisconnected then [.disconnected] else []) ++
    (if isRemoved then [.removed] else [])

theorem count_created_interruptions (n : Nat) : (interruptions n).count .created = 0 := by
  induction n with
  | zero => rfl
  | succ n ih =>
    rw [interruptions_succ, count_append, ih]
    rfl

/-- The project's session is created twice; and a preview makes a session that is
disconnected active. -/
theorem created_again_and_active_while_disconnected :
    (∃ tr manager id, Run (ManagerStep unwrittenCodec .unix) projectKnown tr manager ∧
      reported id tr = [.created, .disconnected, .removed, .created] ∧
      ¬ OneLifetime (reported id tr)) ∧
    (∃ tr manager id session, Run (ManagerStep unwrittenCodec .unix) projectKnown tr manager ∧
      manager.state.sessions.get id = some session ∧
      session.disconnectedAt.isSome ∧ session.status = .active) := by
  constructor
  · have hword : reported 7 ([(findProject, .reconciled ⟨[7], [], [], []⟩),
        (loseProject, .reconciled ⟨[], [], [7], []⟩)] ++
        [(missProject, .reconciled ⟨[], [], [], [7]⟩),
          (findProjectAgain, .reconciled ⟨[7], [], [], []⟩)]) =
        [.created, .disconnected, .removed, .created] := by decide +kernel
    refine ⟨_, _, 7, run_projectBack, hword, ?_⟩
    rw [hword]
    rintro ⟨n, isDisconnected, isRemoved, heq⟩
    -- it is created twice
    have hone : (SessionEvent.created :: interruptions n).count .created = 1 := by
      rw [count_cons, count_created_interruptions]
      rfl
    have hcount := congrArg (List.count SessionEvent.created) heq
    rw [count_append, count_append, hone] at hcount
    revert hcount
    cases isDisconnected <;> cases isRemoved <;> decide
  · have hpreview : ManagerStep unwrittenCodec .unix projectLost
        (.setPreviewVisible 7 true, .set true)
        (projectLost.after (.setPreviewVisible 7 true)) := step_after trivial (by decide +kernel)
    have hsession : ((projectLost.after (.setPreviewVisible 7 true)).state.sessions.get 7).map
        (fun session => (session.disconnectedAt.isSome, session.status)) = some (true, .active) := by
      decide +kernel
    obtain ⟨session, hget, heq⟩ := Option.map_eq_some_iff.mp hsession
    exact ⟨_, _, 7, session, run_projectLost.snoc hpreview, hget, (Prod.mk.inj heq).1,
      (Prod.mk.inj heq).2⟩

/-- The project's session up to its loss. -/
theorem session_lifecycle_projectLost :
    Lifetimes [.created, .disconnected] (presence (projectLost.state.sessions.get 7)) := by
  have hpreview : Along (ManagerStep unwrittenCodec .unix) (PreviewWhileConnected 7)
      (.new 1000000000 (some knownProject))
      [(findProject, .reconciled ⟨[7], [], [], []⟩),
        (loseProject, .reconciled ⟨[], [], [7], []⟩)] :=
    Along.cons (fun _ h => by cases h) fun _ _ =>
      Along.cons (fun _ h => by cases h) fun _ _ => Along.nil
  exact (session_lifecycle run_projectLost 7 hpreview).1

end Localview
