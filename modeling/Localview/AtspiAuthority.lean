import Localview.AtspiProvider

/-! # Authority over accessible elements

Calls on one provider side by side: bindings, reacquisitions, disconnections and
reconnections of the accessibility bus, and authorizations.

Permits are given on a flag and a bus that are read one after the other, and the table
of endpoint authority is not asked.  `Sound` is what the three have to do with each
other in every state: a binding that was replaced had been observed defunct, or a later
bus incarnation had been read.  So the table lets a binding go only when flag or bus
bar it for good.
-/
namespace Localview.LinuxAtspi
open Interleaving Interleaving.Call LinuxAtspiProvider List Function AssocMap ProviderState Shared
open StateRun

/-! ## The calls -/

/-- A call of the provider. -/
inductive AuthorityRequest
  | bindInitial (endpoint : AtspiEndpoint) (acquisitionCutRef : String)
  | reacquireAfterDefunct (previous : AtspiElementBinding) (replacement : AtspiEndpoint)
      (acquisitionCutRef : String)
  | reacquireAfterBusReconnect (previous : AtspiElementBinding) (replacement : AtspiEndpoint)
      (acquisitionCutRef : String)
  | markAccessibilityBusDisconnected
  | reconnectAccessibilityBus (opened : Bool)
  | reconnectAccessibilityBusForValidation
  | reconcileActionState (binding : AtspiElementBinding) (read : StateRead)
  | authorizeAction (binding : AtspiElementBinding) (read : StateRead)
  | authorizePointerAction (binding : AtspiElementBinding) (read : StateRead)
      (hitTest : Except AtspiPointerEligibilityError AtspiPointerHitTest)
  | authorizeActionFromObservation (binding : AtspiElementBinding)
      (reliability : AtspiEventReliabilityProfile) (observation : AtspiStateObservation)
  | authorizeFromStateSet (binding : AtspiElementBinding) (states : StateSet)
  | authorizePointerFromObservation (binding : AtspiElementBinding) (states : StateSet)
      (hitTest : AtspiPointerHitTest)
  | bindElsewhere (binding : AtspiElementBinding)

def AuthorityRequest.presents : AuthorityRequest → Option AtspiElementBinding
  | .reacquireAfterDefunct previous _ _ | .reacquireAfterBusReconnect previous _ _ => some previous
  | .reconcileActionState binding _ | .authorizeAction binding _ => some binding
  | .authorizePointerAction binding _ _ | .authorizeActionFromObservation binding _ _ =>
      some binding
  | .authorizeFromStateSet binding _ | .authorizePointerFromObservation binding _ _ => some binding
  | _ => none

/-- The binding has been made, by this provider or another. -/
def AuthorityEvent.makes (binding : AtspiElementBinding) : AuthorityEvent → Bool
  | .bound made _ | .boundElsewhere made => decide (made = binding)
  | _ => false

/-- Another provider of the process makes a binding on a bus of its own. -/
def bindElsewhere (binding : AtspiElementBinding) : AtspiCall Empty Unit :=
  await (fun s => decide (binding.bindingRevision = s.nextBindingRevision ∧
      (binding.accessibilityBusIncarnationRef ∈ s.otherBuses ∨
        binding.accessibilityBusIncarnationRef = s.nextAccessibilityBusIncarnation)))
    fun s => (.ok (),
      { s.mintBinding with
        nextAccessibilityBusIncarnation :=
          max s.nextAccessibilityBusIncarnation (binding.accessibilityBusIncarnationRef + 1)
        otherBuses := binding.accessibilityBusIncarnationRef :: s.otherBuses },
      [.boundElsewhere binding])

/-- The call, its answer to an authorization noted when it returns. -/
def AuthorityRequest.body (self : LinuxAtspiProvider) : AuthorityRequest → AtspiCall Empty Unit
  | .bindInitial endpoint acquisitionCutRef => do
      let _ ← (self.bindInitial endpoint acquisitionCutRef).attempt
  | .reacquireAfterDefunct previous replacement acquisitionCutRef => do
      let _ ← (self.reacquireAfterDefunct previous replacement acquisitionCutRef).attempt
  | .reacquireAfterBusReconnect previous replacement acquisitionCutRef => do
      let _ ← (self.reacquireAfterBusReconnect previous replacement acquisitionCutRef).attempt
  | .markAccessibilityBusDisconnected => LinuxAtspiProvider.markAccessibilityBusDisconnected
  | .reconnectAccessibilityBus opened => do
      let _ ← (self.reconnectAccessibilityBus opened).attempt
  | .reconnectAccessibilityBusForValidation => do
      let _ ← LinuxAtspiProvider.reconnectAccessibilityBusForValidation.attempt
  | .reconcileActionState binding read => do
      let _ ← (self.reconcileActionState binding read).attempt
  | .authorizeAction binding read => do
      let answer ← (self.authorizeAction binding read).attempt
      tell (.actionAnswer binding answer)
  | .authorizePointerAction binding read hitTest => do
      let answer ← (self.authorizePointerAction binding read hitTest).attempt
      tell (.pointerAnswer binding answer)
  | .authorizeActionFromObservation binding reliability observation => do
      let answer ← (self.authorizeActionFromObservation binding reliability observation).attempt
      tell (.actionAnswer binding answer)
  | .authorizeFromStateSet binding states => do
      let answer ← (self.authorizeFromStateSet binding states).attempt
      tell (.actionAnswer binding answer)
  | .authorizePointerFromObservation binding states hitTest => do
      let answer ← (self.authorizePointerFromObservation binding states hitTest).attempt
      tell (.pointerAnswer binding answer)
  | .bindElsewhere binding => Localview.LinuxAtspi.bindElsewhere binding

abbrev AuthorityWorld : Type := Shared ProviderState AuthorityEvent

abbrev AuthorityConfig : Type := Config ProviderState AuthorityEvent

/-- The calls on one provider; who presents a binding has got it. -/
def authoritySystem (self : LinuxAtspiProvider) :
    System ProviderState AuthorityEvent AuthorityRequest :=
  { admits := fun w request =>
      request.presents.all fun binding => w.log.any fun e => e.2.makes binding
    body := AuthorityRequest.body self }

/-! ## What the log says of a binding -/

/-- What bars a binding for good: another replaced it, it was observed defunct, or its
bus incarnation is over. -/
def Fences (binding : AtspiElementBinding) : AuthorityEvent → Prop
  | .bound _ (some previous) => previous = binding
  | .observedDefunct observed => observed = binding
  | .connected incarnation => binding.accessibilityBusIncarnationRef < incarnation
  | .disconnected incarnation => binding.accessibilityBusIncarnationRef = incarnation
  | _ => False

/-- A permit on the binding is given. -/
def Permits (binding : AtspiElementBinding) : AuthorityEvent → Prop
  | .actionAnswer asked (.ok _) | .pointerAnswer asked (.ok _) => asked = binding
  | _ => False

section
variable (w : AuthorityWorld)

def Own (binding : AtspiElementBinding) : Prop :=
  ∃ previous, w.Saw (.bound binding previous)

def Superseded (binding : AtspiElementBinding) : Prop :=
  ∃ fresh, w.Saw (.bound fresh (some binding))

/-- The binding cannot be permitted any more: it was observed defunct, or a later bus
incarnation was read. -/
def Barred (binding : AtspiElementBinding) : Prop :=
  w.Saw (.observedDefunct binding) ∨
    ∃ n, w.Saw (.busRead n) ∧ binding.accessibilityBusIncarnationRef < n

/-- Call `t` last read the binding's flag as live where the provider had made the binding
and nothing had fenced it. -/
def Checked (t : Nat) (binding : AtspiElementBinding) (log : List (Nat × AuthorityEvent)) : Prop :=
  ∃ before after, log = before ++ (t, .readLive binding) :: after ∧
    (t, .readLive binding) ∉ after ∧ (∃ u previous, (u, .bound binding previous) ∈ before) ∧
      ∀ e ∈ before, ¬ Fences binding e.2

/-- What each entry needs before it: a permit, its check; a binding that replaces
another, that none did. -/
def Warranted (log : List (Nat × AuthorityEvent)) (e : Nat × AuthorityEvent) : Prop :=
  (∀ binding, Permits binding e.2 → Checked e.1 binding log) ∧
    ∀ fresh previous, e.2 = .bound fresh (some previous) →
      ∀ x ∈ log, ∀ fresh', x.2 ≠ .bound fresh' (some previous)

/-- The bus's numbers. -/
structure BusFacts : Prop where
  next : w.state.accessibilityBus.incarnationRef < w.state.nextAccessibilityBusIncarnation
  others : ∀ n ∈ w.state.otherBuses, n < w.state.nextAccessibilityBusIncarnation ∧
    n ≠ w.state.accessibilityBus.incarnationRef
  reads : ∀ n, w.Saw (.busRead n) → n ≤ w.state.accessibilityBus.incarnationRef
  connects : ∀ n, w.Saw (.connected n) → n ≤ w.state.accessibilityBus.incarnationRef
  disconnects : ∀ n, w.Saw (.disconnected n) → n < w.state.accessibilityBus.incarnationRef ∨
    n = w.state.accessibilityBus.incarnationRef ∧ w.state.accessibilityBus.lifecycle = .disconnected

/-- The bindings made and their flags. -/
structure BindingFacts : Prop where
  own : ∀ binding, Own w binding → binding.bindingRevision < w.state.nextBindingRevision ∧
    binding.accessibilityBusIncarnationRef ≤ w.state.accessibilityBus.incarnationRef
  elsewhere : ∀ binding, w.Saw (.boundElsewhere binding) →
    binding.bindingRevision < w.state.nextBindingRevision ∧
      binding.accessibilityBusIncarnationRef ∈ w.state.otherBuses ∧
        ∀ made, Own w made → made.bindingRevision ≠ binding.bindingRevision
  revisions : ∀ binding binding', Own w binding → Own w binding' →
    binding.bindingRevision = binding'.bindingRevision → binding = binding'
  flags : ∀ binding, Own w binding →
    (w.state.lifecycle binding.bindingRevision = .invalidDefunct ↔ w.Saw (.observedDefunct binding))
  observed : ∀ binding, w.Saw (.observedDefunct binding) → Own w binding

/-- The record is of a binding of the endpoint; the others of it were replaced. -/
def RecordFits (endpoint : AtspiEndpoint) (record : EndpointAuthorityRecord) :
    Prop :=
  ∃ binding, Own w binding ∧ binding.endpoint = endpoint ∧
    binding.bindingRevision = record.bindingRevision ∧
      (record.retired = true ↔ Superseded w binding) ∧
        ∀ binding', Own w binding' → binding'.endpoint = endpoint → binding' ≠ binding →
          Superseded w binding'

/-- What the table of endpoints says. -/
structure TableFacts : Prop where
  superseded : ∀ binding, Superseded w binding → Own w binding ∧ Barred w binding
  records : ∀ endpoint record, w.state.endpointAuthority.get endpoint = some record →
    RecordFits w endpoint record
  unbound : ∀ endpoint, w.state.endpointAuthority.get endpoint = none →
    ∀ binding, Own w binding → binding.endpoint ≠ endpoint

/-- The invariant of the provider. -/
structure Sound : Prop where
  bus : BusFacts w
  bindings : BindingFacts w
  table : TableFacts w
  warranted : Justified Warranted w.log

end

/-! ## What each access keeps -/

section
variable {w : AuthorityWorld} {t : Nat} {s : ProviderState} {entries : List AuthorityEvent}
  {binding : AtspiElementBinding}

/-- An entry that tells something of bindings. -/
def AuthorityEvent.ofBinding : AuthorityEvent → Bool
  | .bound _ _ | .boundElsewhere _ | .observedDefunct _ => true
  | _ => false

theorem saw_ofBinding (hentries : ∀ e ∈ entries, e.ofBinding = false) {e : AuthorityEvent}
    (he : e.ofBinding = true) : (w.next t s entries).Saw e ↔ w.Saw e := by
  refine saw_next.trans (or_iff_left fun hmem => ?_)
  rw [hentries e hmem] at he
  cases he

theorem own_next (hbound : ∀ b p, .bound b p ∉ entries) :
    Own (w.next t s entries) binding ↔ Own w binding :=
  exists_congr fun _ => saw_next.trans (or_iff_left (hbound _ _))

theorem superseded_next (hbound : ∀ b p, .bound b p ∉ entries) :
    Superseded (w.next t s entries) binding ↔ Superseded w binding :=
  exists_congr fun _ => saw_next.trans (or_iff_left (hbound _ _))

theorem Own.next (h : Own w binding) : Own (w.next t s entries) binding :=
  h.imp fun _ => Shared.Saw.next

theorem Superseded.next (h : Superseded w binding) : Superseded (w.next t s entries) binding :=
  h.imp fun _ => Shared.Saw.next

theorem Barred.next (h : Barred w binding) : Barred (w.next t s entries) binding := by
  rcases h with h | ⟨n, hn, hlt⟩
  · exact .inl h.next
  · exact .inr ⟨n, hn.next, hlt⟩

/-- An access that changes neither flags nor revisions, and tells nothing of bindings. -/
theorem BindingFacts.frame (h : BindingFacts w) (hentries : ∀ e ∈ entries, e.ofBinding = false)
    (hrevision : s.nextBindingRevision = w.state.nextBindingRevision)
    (hbus : w.state.accessibilityBus.incarnationRef ≤ s.accessibilityBus.incarnationRef)
    (hothers : s.otherBuses = w.state.otherBuses) (hflags : s.lifecycle = w.state.lifecycle) :
    BindingFacts (w.next t s entries) := by
  have hbound : ∀ b p, .bound b p ∉ entries := fun b p hmem => nomatch hentries _ hmem
  refine ⟨?_, ?_, ?_, ?_, ?_⟩
  · intro b hb
    obtain ⟨hrev, hinc⟩ := h.own b ((own_next hbound).mp hb)
    rw [next_state, hrevision]
    exact ⟨hrev, Nat.le_trans hinc hbus⟩
  · intro b hb
    obtain ⟨hrev, hinc, hown⟩ := h.elsewhere b ((saw_ofBinding hentries rfl).mp hb)
    rw [next_state, hrevision, hothers]
    exact ⟨hrev, hinc, fun made hmade => hown made ((own_next hbound).mp hmade)⟩
  · intro b b' hb hb'
    exact h.revisions b b' ((own_next hbound).mp hb) ((own_next hbound).mp hb')
  · intro b hb
    rw [next_state, hflags, saw_ofBinding hentries rfl]
    exact h.flags b ((own_next hbound).mp hb)
  · intro b hb
    exact (h.observed b ((saw_ofBinding hentries rfl).mp hb)).next

/-- An access that leaves the bus as it is and tells nothing of it. -/
theorem BusFacts.frame (h : BusFacts w)
    (hentries : ∀ n, .busRead n ∉ entries ∧ .connected n ∉ entries ∧ .disconnected n ∉ entries)
    (hbus : s.accessibilityBus = w.state.accessibilityBus)
    (hnext : w.state.accessibilityBus.incarnationRef < s.nextAccessibilityBusIncarnation)
    (hothers : ∀ n ∈ s.otherBuses, n < s.nextAccessibilityBusIncarnation ∧
      n ≠ w.state.accessibilityBus.incarnationRef) : BusFacts (w.next t s entries) := by
  refine ⟨?_, ?_, ?_, ?_, ?_⟩ <;> simp only [next_state, hbus]
  · exact hnext
  · exact hothers
  · exact fun n hn => h.reads n ((saw_next.mp hn).resolve_right (hentries n).1)
  · exact fun n hn => h.connects n ((saw_next.mp hn).resolve_right (hentries n).2.1)
  · exact fun n hn => h.disconnects n ((saw_next.mp hn).resolve_right (hentries n).2.2)

/-- An access that leaves the table as it is and makes no binding. -/
theorem TableFacts.frame (h : TableFacts w) (hbound : ∀ b p, .bound b p ∉ entries)
    (htable : s.endpointAuthority = w.state.endpointAuthority) :
    TableFacts (w.next t s entries) := by
  refine ⟨?_, ?_, ?_⟩
  · intro b hb
    obtain ⟨hown, hbarred⟩ := h.superseded b ((superseded_next hbound).mp hb)
    exact ⟨hown.next, hbarred.next⟩
  · intro endpoint record hget
    rw [next_state, htable] at hget
    obtain ⟨b, hown, hendpoint, hrev, hretired, hothers⟩ := h.records endpoint record hget
    refine ⟨b, hown.next, hendpoint, hrev, ?_, ?_⟩
    · rw [superseded_next hbound]
      exact hretired
    · intro b' hb' hendpoint' hne
      exact (hothers b' ((own_next hbound).mp hb') hendpoint' hne).next
  · intro endpoint hget b hb
    rw [next_state, htable] at hget
    exact h.unbound endpoint hget b ((own_next hbound).mp hb)

/-- An entry that is neither a permit nor a replacement needs nothing. -/
theorem warranted_of {log : List (Nat × AuthorityEvent)} {e : AuthorityEvent}
    (hpermit : ∀ b, ¬ Permits b e) (hreplace : ∀ fresh previous, e ≠ .bound fresh (some previous)) :
    Warranted log (t, e) :=
  ⟨fun b hb => absurd hb (hpermit b), fun fresh previous he => absurd he (hreplace fresh previous)⟩

open AuthorityEvent

theorem Sound.busRead (h : Sound w) :
    Sound (w.next t w.state [.busRead w.state.accessibilityBus.incarnationRef]) := by
  refine ⟨⟨h.bus.next, h.bus.others, ?_, ?_, ?_⟩, ?_, ?_, ?_⟩
  · intro n hn
    rcases saw_next.mp hn with hn | hn
    · exact h.bus.reads n hn
    · obtain rfl : n = w.state.accessibilityBus.incarnationRef := by simpa using hn
      exact Nat.le_refl _
  · intro n hn
    exact h.bus.connects n (by simpa using hn)
  · intro n hn
    exact h.bus.disconnects n (by simpa using hn)
  · exact h.bindings.frame (by simp [ofBinding]) rfl (Nat.le_refl _) rfl rfl
  · exact h.table.frame (by simp) rfl
  · exact h.warranted.snoc (warranted_of (fun _ => not_false) (by simp))

/-- An entry of no consequence, or an answer that is warranted. -/
theorem Sound.note (h : Sound w) {e : AuthorityEvent}
    (he : ∀ n, e ≠ .busRead n ∧ e ≠ .connected n ∧ e ≠ .disconnected n)
    (hbinding : e.ofBinding = false) (hwarrant : Warranted w.log (t, e)) :
    Sound (w.next t w.state [e]) := by
  refine ⟨h.bus.frame (fun n => ?_) rfl h.bus.next h.bus.others, ?_, ?_, h.warranted.snoc hwarrant⟩
  · simp only [mem_singleton]
    exact ⟨(he n).1.symm, (he n).2.1.symm, (he n).2.2.symm⟩
  · exact h.bindings.frame (by simpa using hbinding) rfl (Nat.le_refl _) rfl rfl
  · refine h.table.frame (fun b p hmem => ?_) rfl
    rw [← mem_singleton.mp hmem] at hbinding
    cases hbinding

theorem Sound.observationRevision (h : Sound w) :
    Sound (w.next t { w.state with
      nextObservationRevision := w.state.nextObservationRevision + 1 } []) := by
  refine ⟨h.bus.frame (by simp) rfl h.bus.next h.bus.others, ?_, ?_, ?_⟩
  · exact h.bindings.frame (by simp) rfl (Nat.le_refl _) rfl rfl
  · exact h.table.frame (by simp) rfl
  · show Justified Warranted (w.log ++ [])
    rw [append_nil]
    exact h.warranted

/-- The bus is marked disconnected. -/
theorem Sound.disconnect (h : Sound w) :
    Sound (w.next t (w.state.setBus { w.state.accessibilityBus with
      lifecycle := .disconnected, connection := false })
        [.disconnected w.state.accessibilityBus.incarnationRef]) := by
  refine ⟨⟨h.bus.next, h.bus.others, ?_, ?_, ?_⟩, ?_, ?_, ?_⟩
  · intro n hn
    exact h.bus.reads n (by simpa using hn)
  · intro n hn
    exact h.bus.connects n (by simpa using hn)
  · intro n hn
    rcases saw_next.mp hn with hn | hn
    · rcases h.bus.disconnects n hn with hlt | ⟨heq, -⟩
      · exact .inl hlt
      · exact .inr ⟨heq, rfl⟩
    · obtain rfl : n = w.state.accessibilityBus.incarnationRef := by simpa using hn
      exact .inr ⟨rfl, rfl⟩
  · exact h.bindings.frame (by simp [ofBinding]) rfl (Nat.le_refl _) rfl rfl
  · exact h.table.frame (by simp) rfl
  · exact h.warranted.snoc (warranted_of (fun _ => not_false) (by simp))

/-- The bus is connected again, under the next incarnation. -/
theorem Sound.connect (h : Sound w) (connection : Bool) :
    Sound (w.next t
      { (w.state.setBus (.mk .connected w.state.nextAccessibilityBusIncarnation connection)) with
        nextAccessibilityBusIncarnation := w.state.nextAccessibilityBusIncarnation + 1 }
      [.connected w.state.nextAccessibilityBusIncarnation]) := by
  have hnext := h.bus.next
  refine ⟨⟨Nat.lt_succ_self _, ?_, ?_, ?_, ?_⟩, ?_, ?_, ?_⟩
  · intro n hn
    have hlt := (h.bus.others n hn).1
    exact ⟨Nat.lt_succ_of_lt hlt, Nat.ne_of_lt hlt⟩
  · intro n hn
    have hle := h.bus.reads n (by simpa using hn)
    exact Nat.le_of_lt (Nat.lt_of_le_of_lt hle hnext)
  · intro n hn
    rcases saw_next.mp hn with hn | hn
    · exact Nat.le_of_lt (Nat.lt_of_le_of_lt (h.bus.connects n hn) hnext)
    · obtain rfl : n = w.state.nextAccessibilityBusIncarnation := by simpa using hn
      exact Nat.le_refl _
  · intro n hn
    left
    rcases h.bus.disconnects n (by simpa using hn) with hlt | ⟨rfl, -⟩
    · exact Nat.lt_trans hlt hnext
    · exact hnext
  · exact h.bindings.frame (by simp [ofBinding]) rfl (Nat.le_of_lt hnext) rfl rfl
  · exact h.table.frame (by simp) rfl
  · exact h.warranted.snoc (warranted_of (fun _ => not_false) (by simp))

/-! ## Bindings made and observed defunct -/

theorem Sound.observeDefunct (h : Sound w) (hown : Own w binding) :
    Sound (w.next t (w.state.flag binding.bindingRevision .invalidDefunct)
      [.observedDefunct binding]) := by
  have hbound : ∀ b p, .bound b p ∉ [observedDefunct binding] := by simp
  refine ⟨h.bus.frame (by simp) rfl h.bus.next h.bus.others, ⟨?_, ?_, ?_, ?_, ?_⟩,
    h.table.frame hbound rfl, ?_⟩
  · intro b hb
    exact h.bindings.own b ((own_next hbound).mp hb)
  · intro b hb
    obtain ⟨hrev, hinc, hmade⟩ := h.bindings.elsewhere b (by simpa using hb)
    exact ⟨hrev, hinc, fun made hown => hmade made ((own_next hbound).mp hown)⟩
  · intro b b' hb hb'
    exact h.bindings.revisions b b' ((own_next hbound).mp hb) ((own_next hbound).mp hb')
  · intro b hb
    have hb' := (own_next hbound).mp hb
    have hflag := h.bindings.flags b hb'
    by_cases hrev : b.bindingRevision = binding.bindingRevision
    · obtain rfl := h.bindings.revisions b binding hb' hown hrev
      simp [flag]
    · have hne : b ≠ binding := fun heq => hrev (by rw [heq])
      simpa [flag, update_of_ne hrev, hne] using hflag
  · intro b hb
    rw [own_next hbound]
    rcases saw_next.mp hb with hb | hb
    · exact h.bindings.observed b hb
    · obtain rfl : b = binding := by simpa using hb
      exact hown
  · exact h.warranted.snoc (warranted_of (fun _ => not_false) (by simp))

section
variable {fresh : AtspiElementBinding} {previous : Option AtspiElementBinding}

theorem own_bound :
    Own (w.next t s [.bound fresh previous]) binding ↔ Own w binding ∨ binding = fresh := by
  unfold Own
  constructor
  · rintro ⟨p, hp⟩
    rcases saw_next.mp hp with hp | hp
    · exact .inl ⟨p, hp⟩
    · obtain ⟨rfl, -⟩ : binding = fresh ∧ p = previous := by simpa using hp
      exact .inr rfl
  · rintro (⟨p, hp⟩ | rfl)
    · exact ⟨p, hp.next⟩
    · exact ⟨previous, saw_next.mpr (.inr (mem_singleton.mpr rfl))⟩

theorem superseded_bound : Superseded (w.next t s [.bound fresh previous]) binding ↔
      Superseded w binding ∨ previous = some binding := by
  unfold Superseded
  constructor
  · rintro ⟨b, hb⟩
    rcases saw_next.mp hb with hb | hb
    · exact .inl ⟨b, hb⟩
    · obtain ⟨-, hprevious⟩ : b = fresh ∧ some binding = previous := by simpa using hb
      exact .inr hprevious.symm
  · rintro (⟨b, hb⟩ | rfl)
    · exact ⟨b, hb.next⟩
    · exact ⟨fresh, saw_next.mpr (.inr (mem_singleton.mpr rfl))⟩

/-- What a state has that `AtspiElementBinding::new` and the table make of another. -/
structure Minted (w : AuthorityWorld) (fresh : AtspiElementBinding) (s : ProviderState) : Prop where
  revision : fresh.bindingRevision = w.state.nextBindingRevision
  read : w.Saw (.busRead fresh.accessibilityBusIncarnationRef)
  bus : s.accessibilityBus = w.state.accessibilityBus
  nextBus : s.nextAccessibilityBusIncarnation = w.state.nextAccessibilityBusIncarnation
  otherBuses : s.otherBuses = w.state.otherBuses
  nextRevision : s.nextBindingRevision = w.state.nextBindingRevision + 1
  lifecycle : s.lifecycle = Function.update w.state.lifecycle w.state.nextBindingRevision .live

theorem BusFacts.bound (h : BusFacts w) (hs : Minted w fresh s) :
    BusFacts (w.next t s [.bound fresh previous]) := by
  refine h.frame (by simp) hs.bus ?_ ?_
  · rw [hs.nextBus]
    exact h.next
  · rw [hs.nextBus, hs.otherBuses]
    exact h.others

/-- The fresh binding is none of those before. -/
theorem Minted.ne (hs : Minted w fresh s) (h : BindingFacts w) (hb : Own w binding) :
    binding.bindingRevision ≠ fresh.bindingRevision := by
  have hlt := (h.own binding hb).1
  have hrev := hs.revision
  omega

theorem BindingFacts.bound (h : BindingFacts w) (hbus : BusFacts w) (hs : Minted w fresh s) :
    BindingFacts (w.next t s [.bound fresh previous]) := by
  have hrev := hs.revision
  refine ⟨?_, ?_, ?_, ?_, ?_⟩
  · intro b hb
    rw [next_state, hs.nextRevision, hs.bus]
    rcases own_bound.mp hb with hb | rfl
    · obtain ⟨hlt, hle⟩ := h.own b hb
      exact ⟨Nat.lt_succ_of_lt hlt, hle⟩
    · exact ⟨by omega, hbus.reads _ hs.read⟩
  · intro b hb
    obtain ⟨hlt, hinc, hmade⟩ := h.elsewhere b (by simpa using hb)
    rw [next_state, hs.nextRevision, hs.otherBuses]
    refine ⟨Nat.lt_succ_of_lt hlt, hinc, ?_⟩
    intro made hown
    rcases own_bound.mp hown with hown | rfl
    · exact hmade made hown
    · omega
  · intro b b' hb hb' heq
    rcases own_bound.mp hb with hold | hfresh
    · rcases own_bound.mp hb' with hold' | hfresh'
      · exact h.revisions b b' hold hold' heq
      · exact absurd (hfresh' ▸ heq) (hs.ne h hold)
    · rcases own_bound.mp hb' with hold' | hfresh'
      · exact absurd (hfresh ▸ heq.symm) (hs.ne h hold')
      · rw [hfresh, hfresh']
  · intro b hb
    rw [next_state, hs.lifecycle]
    rcases own_bound.mp hb with hb | rfl
    · have hne : b.bindingRevision ≠ w.state.nextBindingRevision := by
        rw [← hrev]
        exact hs.ne h hb
      rw [update_of_ne hne, h.flags b hb]
      simp
    · -- nobody has observed the fresh binding
      have hnot : ¬ w.Saw (.observedDefunct b) :=
        fun hsaw => hs.ne h (h.observed b hsaw) rfl
      rw [hrev]
      simp [hnot]
  · intro b hb
    exact (h.observed b (by simpa using hb)).next

/-- The record of an endpoint that neither the fresh binding nor the one it replaces has. -/
theorem RecordFits.bound {endpoint : AtspiEndpoint} {record : EndpointAuthorityRecord}
    (h : RecordFits w endpoint record) (hfresh : fresh.endpoint ≠ endpoint)
    (hprevious : ∀ p, previous = some p → p.endpoint ≠ endpoint) :
    RecordFits (w.next t s [.bound fresh previous]) endpoint record := by
  obtain ⟨b, hb, hendpoint, hrev, hretired, hothers⟩ := h
  refine ⟨b, hb.next, hendpoint, hrev, ?_, ?_⟩
  · rw [hretired, superseded_bound]
    exact (or_iff_left fun hp => hprevious b hp hendpoint).symm
  · intro b' hb' hendpoint' hne
    rcases own_bound.mp hb' with hb' | rfl
    · exact (hothers b' hb' hendpoint' hne).next
    · exact absurd hendpoint' hfresh

end

/-- An endpoint without a record gets its first binding. -/
theorem Sound.bind (h : Sound w) {fresh : AtspiElementBinding} (hs : Minted w fresh s)
    (hget : w.state.endpointAuthority.get fresh.endpoint = none)
    (htable : s.endpointAuthority = w.state.endpointAuthority.insert fresh.endpoint
      { bindingRevision := fresh.bindingRevision, retired := false }) :
    Sound (w.next t s [.bound fresh none]) := by
  have hunsuperseded : ¬ Superseded w fresh :=
    fun hsup => hs.ne h.bindings (h.table.superseded fresh hsup).1 rfl
  refine ⟨h.bus.bound hs, h.bindings.bound h.bus hs, ⟨?_, ?_, ?_⟩, ?_⟩
  · intro b hb
    obtain ⟨hb, hbarred⟩ := h.table.superseded b ((superseded_bound.mp hb).resolve_right (by simp))
    exact ⟨hb.next, hbarred.next⟩
  · intro endpoint record hrecord
    rw [next_state, htable, get_insert] at hrecord
    split_ifs at hrecord with heq
    · subst heq
      cases hrecord
      refine ⟨fresh, own_bound.mpr (.inr rfl), rfl, rfl, ?_, ?_⟩
      · rw [superseded_bound]
        simp [hunsuperseded]
      · intro b' hb' hendpoint hne
        exact absurd hendpoint
          (h.table.unbound _ hget b' ((own_bound.mp hb').resolve_right hne))
    · exact (h.table.records endpoint record hrecord).bound (Ne.symm heq) (by simp)
  · intro endpoint hnone b hb
    rw [next_state, htable, get_insert] at hnone
    split_ifs at hnone with heq
    rcases own_bound.mp hb with hb | rfl
    · exact h.table.unbound endpoint hnone b hb
    · exact Ne.symm heq
  · exact h.warranted.snoc (warranted_of (fun _ => not_false) (by simp))

/-- The record of a binding that the table still has. -/
theorem Sound.record_of_live (h : Sound w) {previous : AtspiElementBinding}
    {record : EndpointAuthorityRecord} (hprevious : Own w previous)
    (hget : w.state.endpointAuthority.get previous.endpoint = some record)
    (hlive : record.retired = false) (hrev : record.bindingRevision = previous.bindingRevision) :
    ¬ Superseded w previous ∧ ∀ b, Own w b → b.endpoint = previous.endpoint → b ≠ previous →
      Superseded w b := by
  obtain ⟨b, hb, -, hbrev, hretired, hothers⟩ := h.table.records _ record hget
  obtain rfl := h.bindings.revisions b previous hb hprevious (hbrev.trans hrev)
  refine ⟨fun hsup => ?_, hothers⟩
  rw [hlive] at hretired
  exact absurd (hretired.mpr hsup) (by simp)

/-- A binding that the table still has is replaced, once it is barred. -/
theorem Sound.replace (h : Sound w) {fresh previous : AtspiElementBinding}
    {record : EndpointAuthorityRecord} (hs : Minted w fresh s) (hprevious : Own w previous)
    (hbarred : Barred w previous)
    (hget : w.state.endpointAuthority.get previous.endpoint = some record)
    (hlive : record.retired = false) (hrev : record.bindingRevision = previous.bindingRevision)
    (hfree : fresh.endpoint ≠ previous.endpoint →
      w.state.endpointAuthority.get fresh.endpoint = none)
    (htable : ∀ endpoint, s.endpointAuthority.get endpoint =
      if endpoint = fresh.endpoint then
        some { bindingRevision := fresh.bindingRevision, retired := false }
      else if endpoint = previous.endpoint then some { record with retired := true }
      else w.state.endpointAuthority.get endpoint) :
    Sound (w.next t s [.bound fresh (some previous)]) := by
  obtain ⟨hunreplaced, hothers⟩ := h.record_of_live hprevious hget hlive hrev
  have hunsuperseded : ¬ Superseded w fresh :=
    fun hsup => hs.ne h.bindings (h.table.superseded fresh hsup).1 rfl
  have hne : previous ≠ fresh := fun heq => hs.ne h.bindings hprevious (by rw [heq])
  refine ⟨h.bus.bound hs, h.bindings.bound h.bus hs, ⟨?_, ?_, ?_⟩, ?_⟩
  · intro b hb
    rcases superseded_bound.mp hb with hb | hb
    · obtain ⟨hb, hbarred⟩ := h.table.superseded b hb
      exact ⟨hb.next, hbarred.next⟩
    · cases hb
      exact ⟨hprevious.next, hbarred.next⟩
  · intro endpoint r hr
    rw [next_state, htable] at hr
    split_ifs at hr with hfresh hold
    · -- the endpoint of the fresh binding
      subst hfresh
      cases hr
      refine ⟨fresh, own_bound.mpr (.inr rfl), rfl, rfl, ?_, ?_⟩
      · rw [superseded_bound]
        simp [hunsuperseded, hne]
      · intro b hb hendpoint hbne
        have hb := (own_bound.mp hb).resolve_right hbne
        by_cases hsame : fresh.endpoint = previous.endpoint
        · rw [superseded_bound]
          by_cases hprev : b = previous
          · exact .inr (by rw [hprev])
          · exact .inl (hothers b hb (hendpoint.trans hsame) hprev)
        · exact absurd hendpoint (h.table.unbound _ (hfree hsame) b hb)
    · -- the endpoint that the replaced binding leaves
      subst hold
      cases hr
      refine ⟨previous, hprevious.next, rfl, hrev.symm, ?_, ?_⟩
      · rw [superseded_bound]
        simp
      · intro b hb hendpoint hbne
        rcases own_bound.mp hb with hb | rfl
        · exact (hothers b hb hendpoint hbne).next
        · exact absurd hendpoint.symm hfresh
    · refine (h.table.records endpoint r hr).bound (Ne.symm hfresh) ?_
      intro p hp
      cases hp
      exact Ne.symm hold
  · intro endpoint hnone b hb
    rw [next_state, htable] at hnone
    split_ifs at hnone with hfresh hold
    rcases own_bound.mp hb with hb | rfl
    · exact h.table.unbound endpoint hnone b hb
    · exact Ne.symm hfresh
  · refine h.warranted.snoc ⟨fun _ => not_false.elim, ?_⟩
    rintro fresh' previous' heq ⟨u, x⟩ hx fresh'' rfl
    simp only [bound.injEq, Option.some.injEq] at heq
    rw [← heq.2] at hx
    exact hunreplaced ⟨fresh'', u, hx⟩

/-- Another provider makes a binding. -/
theorem Sound.bindElsewhere (h : Sound w)
    (hrev : binding.bindingRevision = w.state.nextBindingRevision)
    (hbus : binding.accessibilityBusIncarnationRef ∈ w.state.otherBuses ∨
      binding.accessibilityBusIncarnationRef = w.state.nextAccessibilityBusIncarnation) :
    Sound (w.next t { w.state.mintBinding with
      nextAccessibilityBusIncarnation := max w.state.nextAccessibilityBusIncarnation
        (binding.accessibilityBusIncarnationRef + 1)
      otherBuses := binding.accessibilityBusIncarnationRef :: w.state.otherBuses }
      [.boundElsewhere binding]) := by
  have hbound : ∀ b p, .bound b p ∉ [boundElsewhere binding] := by simp
  have hnext := h.bus.next
  refine ⟨h.bus.frame (by simp) rfl ?_ ?_, ⟨?_, ?_, ?_, ?_, ?_⟩, h.table.frame hbound rfl, ?_⟩
  · show w.state.accessibilityBus.incarnationRef < max _ _
    omega
  · intro n hn
    rcases mem_cons.mp hn with rfl | hn
    · refine ⟨by show _ < max _ _; omega, ?_⟩
      rcases hbus with hbus | hbus
      · exact (h.bus.others _ hbus).2
      · rw [hbus]
        exact Nat.ne_of_gt hnext
    · obtain ⟨hlt, hne⟩ := h.bus.others n hn
      exact ⟨by show n < max _ _; omega, hne⟩
  · intro b hb
    obtain ⟨hlt, hle⟩ := h.bindings.own b ((own_next hbound).mp hb)
    exact ⟨Nat.lt_succ_of_lt hlt, hle⟩
  · intro b hb
    rcases saw_next.mp hb with hb | hb
    · obtain ⟨hlt, hinc, hmade⟩ := h.bindings.elsewhere b hb
      exact ⟨Nat.lt_succ_of_lt hlt, mem_cons_of_mem _ hinc,
        fun made hown => hmade made ((own_next hbound).mp hown)⟩
    · obtain rfl : b = binding := by simpa using hb
      refine ⟨by rw [hrev]; exact Nat.lt_succ_self _, mem_cons_self, ?_⟩
      intro made hown
      have hlt := (h.bindings.own made ((own_next hbound).mp hown)).1
      omega
  · intro b b' hb hb'
    exact h.bindings.revisions b b' ((own_next hbound).mp hb) ((own_next hbound).mp hb')
  · intro b hb
    have hb' := (own_next hbound).mp hb
    have hne : b.bindingRevision ≠ w.state.nextBindingRevision :=
      Nat.ne_of_lt (h.bindings.own b hb').1
    have hflag := h.bindings.flags b hb'
    simpa [mintBinding, flag, update_of_ne hne] using hflag
  · intro b hb
    exact (h.bindings.observed b (by simpa using hb)).next
  · exact h.warranted.snoc (warranted_of (fun _ => not_false) (by simp))

end

/-! ## Calls that bind -/

section
variable {self : LinuxAtspiProvider} {w : AuthorityWorld} {t : Nat} {binding : AtspiElementBinding}

/-- Somebody has made the binding. -/
def Known (w : AuthorityWorld) (binding : AtspiElementBinding) : Prop :=
  Own w binding ∨ w.Saw (.boundElsewhere binding)

variable {w' : AuthorityWorld}

theorem Own.grows (h : Own w binding) (hgrows : Grows w w') :
    Own w' binding := h.imp fun _ => hgrows.saw

theorem Barred.grows (h : Barred w binding) (hgrows : Grows w w') :
    Barred w' binding := by
  rcases h with h | ⟨n, hn, hlt⟩
  · exact .inl (hgrows.saw h)
  · exact .inr ⟨n, hgrows.saw hn, hlt⟩

theorem Known.grows (h : Known w binding) (hgrows : Grows w w') :
    Known w' binding := h.imp (Own.grows · hgrows) hgrows.saw

/-- An incarnation that is read is not before those of the bindings there are. -/
theorem meets_readBus {η : Type} {disconnected : η} {check : Nat → Option η} :
    Meets Sound t (fun n w' => w'.Saw (.busRead n) ∧ check n = none ∧
        ∀ b, Own w b → b.accessibilityBusIncarnationRef ≤ n)
      (fun _ _ => True) (readBus disconnected check) w := by
  unfold readBus
  refine meets_locked fun w' result s entries hlater hw hf => ?_
  split at hf
  · cases hf
    exact ⟨by simpa using hw, trivial⟩
  split at hf
  · cases hf
    exact ⟨by simpa using hw, trivial⟩
  · rename_i hcheck
    cases hf
    refine ⟨hw.busRead, saw_next.mpr (.inr (mem_singleton.mpr rfl)), hcheck, ?_⟩
    intro b hb
    exact (hw.bindings.own b (hb.grows hlater.grows)).2

variable {acquisitionCutRef : String}

theorem goes_bindInitial {endpoint : AtspiEndpoint} :
    Goes Sound t (self.bindInitial endpoint acquisitionCutRef) w := by
  refine meets_readBus.goes_bind ?_
  rintro n w₁ ⟨hread, -, -⟩
  refine meets_locked fun w' result s entries hlater hw hf => ?_
  split at hf
  · cases hf
    exact ⟨by simpa using hw, trivial⟩
  · rename_i hfree
    cases hf
    refine ⟨hw.bind ⟨rfl, hlater.grows.saw hread, rfl, rfl, rfl, rfl, rfl⟩ ?_ rfl, trivial⟩
    show w'.state.endpointAuthority.get endpoint = none
    simpa using hfree

/-- The previous binding of a replacement: barred, or another provider's. -/
def Replaceable (w : AuthorityWorld) (previous : AtspiElementBinding) : Prop :=
  Own w previous ∧ Barred w previous ∨ w.Saw (.boundElsewhere previous)

theorem Replaceable.grows (h : Replaceable w binding) (hgrows : Grows w w') :
    Replaceable w' binding :=
  h.imp (fun h => ⟨h.1.grows hgrows, h.2.grows hgrows⟩) hgrows.saw

variable {previous : AtspiElementBinding}

/-- The record of a binding is not that of another provider's. -/
theorem Sound.own_of_record (h : Sound w) (hprevious : Replaceable w previous)
    {endpoint : AtspiEndpoint} {record : EndpointAuthorityRecord}
    (hget : w.state.endpointAuthority.get endpoint = some record)
    (hrev : record.bindingRevision = previous.bindingRevision) :
    Own w previous ∧ Barred w previous := by
  rcases hprevious with hown | helsewhere
  · exact hown
  · obtain ⟨b, hb, -, hbrev, -, -⟩ := h.table.records endpoint record hget
    exact absurd (hbrev.trans hrev) ((h.bindings.elsewhere previous helsewhere).2.2 b hb)

variable {replacement : AtspiEndpoint}

theorem goes_replaceBinding {n : Nat} (hread : w.Saw (.busRead n))
    (hprevious : Replaceable w previous) :
    Goes Sound t (self.replaceBinding previous replacement acquisitionCutRef n) w := by
  refine meets_locked fun w' result s entries hlater hw hf => ?_
  have hgrows := hlater.grows
  split at hf
  · cases hf
    exact ⟨by simpa using hw, trivial⟩
  rename_i record hget
  split at hf
  · cases hf
    exact ⟨by simpa using hw, trivial⟩
  rename_i hrecord
  obtain ⟨hlive, hrev⟩ : record.retired = false ∧
      record.bindingRevision = previous.bindingRevision := by simpa using hrecord
  obtain ⟨hown, hbarred⟩ := hw.own_of_record (hprevious.grows hgrows) hget hrev
  split at hf
  · cases hf
    exact ⟨by simpa using hw, trivial⟩
  rename_i hfree
  split at hf
  · rename_i hsame
    cases hf
    refine ⟨hw.replace ⟨rfl, hgrows.saw hread, rfl, rfl, rfl, rfl, rfl⟩ hown hbarred hget hlive hrev
      (fun hne => absurd hsame hne) ?_, trivial⟩
    intro endpoint
    show (w'.state.endpointAuthority.insert replacement _).get endpoint =
      if endpoint = replacement then _ else if endpoint = previous.endpoint then _ else _
    rw [get_insert]
    by_cases heq : endpoint = replacement
    · rw [if_pos heq, if_pos heq]
    · rw [if_neg heq, if_neg heq, if_neg (by rw [← hsame]; exact heq)]
  · rename_i hne
    cases hf
    refine ⟨hw.replace ⟨rfl, hgrows.saw hread, rfl, rfl, rfl, rfl, rfl⟩ hown hbarred hget hlive hrev
      (fun _ => ?_) ?_, trivial⟩
    · show w'.state.endpointAuthority.get replacement = none
      simpa [hne] using hfree
    · intro endpoint
      show ((w'.state.endpointAuthority.insert previous.endpoint _).insert replacement _).get
        endpoint = _
      rw [get_insert, get_insert]
      rfl

theorem goes_reacquireAfterDefunct (hw : Sound w) (hknown : Known w previous) :
    Goes Sound t (self.reacquireAfterDefunct previous replacement acquisitionCutRef) w := by
  have hflag : Meets Sound t (fun _ w' => Replaceable w' previous) (fun _ _ => True)
      (locked fun s => if s.lifecycle previous.bindingRevision ≠ .invalidDefunct then
        (.error AtspiReacquireError.previousBindingNotDefunct, s, []) else (.ok (), s, [])) w := by
    refine meets_locked fun w' result s entries hlater hw hf => ?_
    split at hf
    · cases hf
      exact ⟨by simpa using hw, trivial⟩
    · rename_i hdefunct
      cases hf
      rw [next_nothing]
      refine ⟨hw, ?_⟩
      rcases hknown.grows hlater.grows with hown | helsewhere
      · have hobserved := (hw.bindings.flags previous hown).mp (not_not.mp hdefunct)
        exact .inl ⟨hown, .inl hobserved⟩
      · exact .inr helsewhere
  unfold reacquireAfterDefunct Goes
  simp only [meets_bind, meets_reject]
  refine ⟨fun _ => trivial, fun _ => ⟨fun _ => trivial, fun _ => ?_⟩⟩
  refine (hflag.ends hw).mono ?_ fun _ _ _ => trivial
  rintro _ w₁ ⟨hreplaceable, hw₁, -⟩
  refine meets_bind.mpr ((meets_readBus.ends hw₁).mono ?_ fun _ _ _ => trivial)
  rintro n w₂ ⟨⟨hread, -, -⟩, -, hgrows⟩
  exact goes_replaceBinding hread (hreplaceable.grows hgrows)

theorem goes_reacquireAfterBusReconnect (hw : Sound w) (hknown : Known w previous) :
    Goes Sound t (self.reacquireAfterBusReconnect previous replacement acquisitionCutRef) w := by
  unfold reacquireAfterBusReconnect Goes
  simp only [meets_bind, meets_reject]
  refine ⟨fun _ => trivial, fun _ => ⟨fun _ => trivial, fun _ => ?_⟩⟩
  refine (meets_readBus.ends hw).mono ?_ fun _ _ _ => trivial
  rintro n w₁ ⟨⟨hread, hcheck, hle⟩, -, hgrows⟩
  refine goes_replaceBinding hread ?_
  rcases hknown with hown | helsewhere
  · have hne : previous.accessibilityBusIncarnationRef ≠ n := by simpa using hcheck
    exact .inl ⟨hown.grows hgrows, .inr ⟨n, hread, Nat.lt_of_le_of_ne (hle previous hown) hne⟩⟩
  · exact .inr (hgrows.saw helsewhere)

/-! ## Calls that move the bus -/

theorem goes_markAccessibilityBusDisconnected {η : Type} :
    Goes Sound t (markAccessibilityBusDisconnected : AtspiCall η Unit) w :=
  meets_update fun _ _ hw => ⟨hw.disconnect, trivial⟩

theorem goes_freshBus {connection : Bool} : Goes Sound t (freshBus connection) w := by
  refine meets_locked fun w' result s entries hlater hw hf => ?_
  split at hf
  · cases hf
    exact ⟨by simpa using hw, trivial⟩
  · cases hf
    exact ⟨hw.connect connection, trivial⟩

theorem goes_reconnectAccessibilityBus {opened : Bool} :
    Goes Sound t (self.reconnectAccessibilityBus opened) w := by
  have hcheck : Goes Sound t (locked fun s : ProviderState =>
      if s.accessibilityBus.lifecycle = .connected then
        (.error AtspiProviderConnectionError.accessibilityBusStillConnected, s, [])
      else (.ok (), s, [])) w := by
    refine meets_locked fun w' result s entries hlater hw hf => ?_
    split at hf
    all_goals
      cases hf
      exact ⟨by simpa using hw, trivial⟩
  refine hcheck.goes_bind fun _ w₁ _ => ?_
  unfold Goes
  simp only [meets_bind, meets_reject]
  exact ⟨fun _ => trivial, fun _ => ⟨fun _ => trivial, fun _ => goes_freshBus⟩⟩

theorem goes_bindElsewhere : Goes Sound t (Localview.LinuxAtspi.bindElsewhere binding) w := by
  refine meets_await fun w' result s entries hlater hw hready hf => ?_
  cases hf
  obtain ⟨hrev, hbus⟩ := of_decide_eq_true hready
  exact ⟨hw.bindElsewhere hrev hbus, trivial⟩

theorem goes_connectionForLiveAuthority : Goes Sound t connectionForLiveAuthority w := by
  refine meets_locked fun w' result s entries hlater hw hf => ?_
  split_ifs at hf
  all_goals
    cases hf
    exact ⟨by simpa using hw, trivial⟩

theorem goes_classifyTransportFailure {α : Type} {failedBusIncarnation : Nat} {busAlive : Bool} :
    Goes Sound t (classifyTransportFailure failedBusIncarnation busAlive :
      AtspiCall AtspiActionEligibilityError α) w := by
  unfold classifyTransportFailure Goes
  simp only [meets_bind, meets_reject]
  refine ⟨fun _ => trivial, fun _ => ?_⟩
  refine meets_locked fun w' result s entries hlater hw hf => ?_
  split_ifs at hf
  · cases hf
    exact ⟨by simpa using hw, trivial⟩
  · cases hf
    exact ⟨by simpa using hw, trivial⟩
  · cases hf
    exact ⟨hw.disconnect, trivial⟩

variable {read : StateRead}

theorem goes_readStates : Goes Sound t (readStates read) w := by
  refine goes_connectionForLiveAuthority.goes_bind fun busIncarnation w₁ _ => ?_
  cases read with
  | malformed => trivial
  | failed busAlive => exact goes_classifyTransportFailure
  | states states => trivial

theorem goes_fromDirectReconciliation {η : Type} {states : StateSet} :
    Goes Sound t (fromDirectReconciliation binding states :
      AtspiCall η AtspiStateObservation) w :=
  meets_update fun _ _ hw => ⟨hw.observationRevision, trivial⟩

/-! ## Calls that authorize -/

/-- The log of `w`, where the binding was not barred by its flag, then call `t`'s reading
of it, then what others did. -/
def LiveSince (t : Nat) (binding : AtspiElementBinding) (w w' : AuthorityWorld) : Prop :=
  Sound w ∧ Known w binding ∧ w.state.lifecycle binding.bindingRevision ≠ .invalidDefunct ∧
    ∃ after, w'.log = w.log ++ (t, .readLive binding) :: after ∧ (t, .readLive binding) ∉ after

theorem LiveSince.later {v w' : AuthorityWorld} (h : LiveSince t binding v w)
    (hlater : Later t w w') : LiveSince t binding v w' := by
  obtain ⟨hv, hknown, hlive, after, hlog, hafter⟩ := h
  obtain ⟨more, hmore, hothers⟩ := hlater
  refine ⟨hv, hknown, hlive, after ++ more, by rw [hmore, hlog]; simp, ?_⟩
  intro hmem
  rcases mem_append.mp hmem with hmem | hmem
  · exact hafter hmem
  · exact hothers _ hmem rfl

theorem LiveSince.grows {v : AuthorityWorld} (h : LiveSince t binding v w) : Grows v w := by
  obtain ⟨-, -, -, after, hlog, -⟩ := h
  exact ⟨_, hlog⟩

theorem Checked.later (h : Checked t binding w.log) (hlater : Later t w w') :
    Checked t binding w'.log := by
  obtain ⟨before, after, hlog, hafter, hmade, hfences⟩ := h
  obtain ⟨more, hmore, hothers⟩ := hlater
  refine ⟨before, after ++ more, by rw [hmore, hlog]; simp, ?_, hmade, hfences⟩
  intro hmem
  rcases mem_append.mp hmem with hmem | hmem
  · exact hafter hmem
  · exact hothers _ hmem rfl

/-- **The two readings make one check**: with the bus still at the binding's
incarnation, nothing had fenced the binding when its flag was read. -/
theorem LiveSince.checked {v : AuthorityWorld} (h : LiveSince t binding v w) (hw : Sound w)
    (hconnected : w.state.accessibilityBus.lifecycle ≠ .disconnected)
    (hcurrent : binding.accessibilityBusIncarnationRef = w.state.accessibilityBus.incarnationRef) :
    Own v binding ∧ Checked t binding w.log := by
  have hgrows := h.grows
  obtain ⟨hv, hknown, hlive, after, hlog, hafter⟩ := h
  have hown : Own v binding := by
    rcases hknown with hown | helsewhere
    · exact hown
    · have hother := (hw.bindings.elsewhere binding (hgrows.saw helsewhere)).2.1
      exact absurd hcurrent (hw.bus.others _ hother).2
  have hunobserved : ¬ v.Saw (.observedDefunct binding) :=
    fun hsaw => hlive ((hv.bindings.flags binding hown).mpr hsaw)
  obtain ⟨previous, maker, hmade⟩ := id hown
  refine ⟨hown, v.log, after, hlog, hafter, ⟨maker, previous, hmade⟩, ?_⟩
  rintro ⟨u, e⟩ he hfence
  have hsaw : v.Saw e := ⟨u, he⟩
  cases e with
  | bound fresh previous =>
    cases previous with
    | none => exact hfence
    | some previous =>
      obtain rfl : previous = binding := hfence
      -- it was replaced because it was barred, and the flag and the bus deny it
      rcases (hv.table.superseded previous ⟨fresh, hsaw⟩).2 with hobserved | ⟨n, hn, hlt⟩
      · exact hunobserved hobserved
      · have hle := hw.bus.reads n (hgrows.saw hn)
        omega
  | observedDefunct observed =>
    obtain rfl : observed = binding := hfence
    exact hunobserved hsaw
  | connected n =>
    have hlt : binding.accessibilityBusIncarnationRef < n := hfence
    have hle := hw.bus.connects n (hgrows.saw hsaw)
    omega
  | disconnected n =>
    have heq : binding.accessibilityBusIncarnationRef = n := hfence
    rcases hw.bus.disconnects n (hgrows.saw hsaw) with hlt | ⟨-, hdisconnected⟩
    · omega
    · exact hconnected hdisconnected
  | _ => exact hfence

theorem meets_ensureBindingAuthority (hknown : Known w binding) :
    Meets Sound t (fun _ w' => Own w' binding ∧ Checked t binding w'.log) (fun _ _ => True)
      (self.ensureBindingAuthority binding) w := by
  have hflag : Meets Sound t (fun _ w' => ∃ v, LiveSince t binding v w') (fun _ _ => True)
      (locked fun s => if s.lifecycle binding.bindingRevision = .invalidDefunct then
        (.error AtspiActionEligibilityError.alreadyInvalidDefunct, s, [])
        else (.ok (), s, [.readLive binding])) w := by
    refine meets_locked fun w' result s entries hlater hw hf => ?_
    split at hf
    · cases hf
      exact ⟨by simpa using hw, trivial⟩
    · rename_i hlive
      cases hf
      refine ⟨hw.note (fun n => ⟨by simp, by simp, by simp⟩) rfl
        (warranted_of (fun _ => not_false) (by simp)), w', hw, hknown.grows hlater.grows, hlive,
        [], rfl, by simp⟩
  unfold ensureBindingAuthority
  simp only [meets_bind]
  refine hflag.mono ?_ fun _ _ _ => trivial
  rintro _ w₁ ⟨v, hv⟩
  simp only [meets_bind, meets_reject]
  refine ⟨fun _ => trivial, fun _ => ⟨fun _ => trivial, fun _ => ?_⟩⟩
  refine meets_locked fun w' result s entries hlater hw hf => ?_
  split_ifs at hf with hdisconnected hmismatch
  · cases hf
    exact ⟨by simpa using hw, trivial⟩
  · cases hf
    exact ⟨by simpa using hw, trivial⟩
  · cases hf
    rw [next_nothing]
    have hsince := hv.later hlater
    obtain ⟨hown, hchecked⟩ := hsince.checked hw hdisconnected (not_not.mp hmismatch)
    exact ⟨hw, hown.grows hsince.grows, hchecked⟩

/-- The element turns out defunct: the flag goes, and there is no permit. -/
theorem goes_invalidateDefunct {η : Type} (hown : Own w binding) :
    Goes Sound t (invalidateDefunct binding : AtspiCall η Unit) w :=
  meets_update fun _ hlater hw => ⟨hw.observeDefunct (hown.grows hlater.grows), trivial⟩

theorem meets_authorizeFromStateSet {states : StateSet} (hknown : Known w binding) :
    Meets Sound t (fun _ w' => Checked t binding w'.log) (fun _ _ => True)
      (self.authorizeFromStateSet binding states) w := by
  refine meets_bind.mpr ((meets_ensureBindingAuthority hknown).mono ?_ fun _ _ _ => trivial)
  rintro _ w₁ ⟨hown, hchecked⟩
  split
  · exact meets_bind.mpr ((goes_invalidateDefunct hown).mono (fun _ _ _ => trivial)
      fun _ _ _ => trivial)
  · exact hchecked

theorem meets_authorizeActionFromObservation {reliability : AtspiEventReliabilityProfile}
    {observation : AtspiStateObservation} (hknown : Known w binding) :
    Meets Sound t (fun _ w' => Checked t binding w'.log) (fun _ _ => True)
      (self.authorizeActionFromObservation binding reliability observation) w := by
  refine meets_bind.mpr ((meets_ensureBindingAuthority hknown).mono ?_ fun _ _ _ => trivial)
  rintro _ w₁ ⟨hown, hchecked⟩
  simp only [meets_bind, meets_reject]
  refine ⟨fun _ => trivial, fun _ => ⟨fun _ => trivial, fun _ => ?_⟩⟩
  split
  · exact meets_bind.mpr ((goes_invalidateDefunct hown).mono (fun _ _ _ => trivial)
      fun _ _ _ => trivial)
  · exact hchecked

theorem goes_reconcileActionState (hknown : Known w binding) :
    Goes Sound t (self.reconcileActionState binding read) w := by
  refine (meets_ensureBindingAuthority hknown).goes_bind fun _ w₁ _ => ?_
  exact goes_readStates.goes_bind fun _ w₂ _ => goes_fromDirectReconciliation

theorem meets_authorizeAction (hw : Sound w) (hknown : Known w binding) :
    Meets Sound t (fun _ w' => Checked t binding w'.log) (fun _ _ => True)
      (self.authorizeAction binding read) w := by
  refine meets_bind.mpr (((goes_reconcileActionState hknown).ends hw).mono ?_ fun _ _ _ => trivial)
  rintro observation w₁ ⟨-, -, hgrows⟩
  exact meets_authorizeActionFromObservation (hknown.grows hgrows)

theorem meets_authorizePointerFromObservation {states : StateSet} {hitTest : AtspiPointerHitTest}
    (hknown : Known w binding) :
    Meets Sound t (fun _ w' => Checked t binding w'.log) (fun _ _ => True)
      (self.authorizePointerFromObservation binding states hitTest) w := by
  refine meets_bind.mpr (meets_mapError.mpr
    ((meets_authorizeFromStateSet hknown).mono ?_ fun _ _ _ => trivial))
  rintro _ w₁ hchecked
  simp only [meets_bind, meets_reject]
  refine ⟨fun _ => trivial, fun _ => ⟨fun _ => trivial, fun _ => ?_⟩⟩
  cases hitTest with
  | unavailable => trivial
  | other endpoint => trivial
  | target endpoint =>
    simp only
    split
    · exact hchecked
    · trivial

theorem meets_authorizePointerAction
    {hitTest : Except AtspiPointerEligibilityError AtspiPointerHitTest} (hw : Sound w)
    (hknown : Known w binding) :
    Meets Sound t (fun _ w' => Checked t binding w'.log) (fun _ _ => True)
      (self.authorizePointerAction binding read hitTest) w := by
  refine meets_bind.mpr (meets_mapError.mpr
    (((meets_ensureBindingAuthority hknown).ends hw).mono ?_ fun _ _ _ => trivial))
  rintro _ w₁ ⟨-, hw₁, hgrows₁⟩
  refine meets_bind.mpr (meets_mapError.mpr
    ((goes_readStates.ends hw₁).mono ?_ fun _ _ _ => trivial))
  rintro states w₂ ⟨-, hw₂, hgrows₂⟩
  have hknown₂ := hknown.grows (hgrows₁.trans hgrows₂)
  refine meets_bind.mpr (meets_mapError.mpr
    (((meets_authorizeFromStateSet hknown₂).ends hw₂).mono ?_ fun _ _ _ => trivial))
  rintro _ w₃ ⟨-, -, hgrows₃⟩
  simp only [meets_bind, meets_reject]
  refine ⟨fun _ => trivial, fun _ => ⟨fun _ => trivial, fun _ => ?_⟩⟩
  cases hitTest with
  | error e => trivial
  | ok hit => exact meets_authorizePointerFromObservation (hknown₂.grows hgrows₃)

/-- The answer is noted; a permit has had its check. -/
theorem goes_answered {η α : Type} {call : AtspiCall η α} {note : Except η α → AuthorityEvent}
    (hcall : Meets Sound t (fun _ w' => Checked t binding w'.log) (fun _ _ => True) call w)
    (hpermits : ∀ answer b, Permits b (note answer) → b = binding ∧ ∃ a, answer = .ok a)
    (hplain : ∀ answer, (note answer).ofBinding = false ∧
      ∀ n, note answer ≠ .busRead n ∧ note answer ≠ .connected n ∧ note answer ≠ .disconnected n) :
    Goes Sound t (do
      let answer ← (call.attempt : AtspiCall Empty _)
      tell (note answer)) w := by
  have hreplace : ∀ answer fresh previous, note answer ≠ .bound fresh (some previous) := by
    intro answer fresh previous heq
    have hfalse := (hplain answer).1
    rw [heq] at hfalse
    cases hfalse
  refine meets_bind.mpr (meets_attempt.mpr (hcall.mono ?_ ?_))
  · intro a w₁ hchecked
    refine meets_tell fun w' hlater hw => ⟨hw.note (hplain _).2 (hplain _).1 ⟨?_, ?_⟩, trivial⟩
    · intro b hb
      obtain ⟨rfl, -⟩ := hpermits _ b hb
      exact hchecked.later hlater
    · exact fun fresh previous heq => absurd heq (hreplace _ fresh previous)
  · intro e w₁ _
    refine meets_tell fun w' hlater hw => ⟨hw.note (hplain _).2 (hplain _).1 ⟨?_, ?_⟩, trivial⟩
    · intro b hb
      obtain ⟨-, a, ha⟩ := hpermits _ b hb
      cases ha
    · exact fun fresh previous heq => absurd heq (hreplace _ fresh previous)

theorem goes_actionAnswered
    {call : AtspiCall AtspiActionEligibilityError AtspiActionEligibilityPermit}
    (hcall : Meets Sound t (fun _ w' => Checked t binding w'.log) (fun _ _ => True) call w) :
    Goes Sound t (do
      let answer ← (call.attempt : AtspiCall Empty _)
      tell (.actionAnswer binding answer)) w := by
  refine goes_answered hcall ?_ fun answer => ⟨rfl, fun n => ⟨by simp, by simp, by simp⟩⟩
  intro answer b hb
  cases answer with
  | error e => exact hb.elim
  | ok permit => exact ⟨Eq.symm hb, permit, rfl⟩

theorem goes_pointerAnswered
    {call : AtspiCall AtspiPointerEligibilityError AtspiPointerEligibilityPermit}
    (hcall : Meets Sound t (fun _ w' => Checked t binding w'.log) (fun _ _ => True) call w) :
    Goes Sound t (do
      let answer ← (call.attempt : AtspiCall Empty _)
      tell (.pointerAnswer binding answer)) w := by
  refine goes_answered hcall ?_ fun answer => ⟨rfl, fun n => ⟨by simp, by simp, by simp⟩⟩
  intro answer b hb
  cases answer with
  | error e => exact hb.elim
  | ok permit => exact ⟨Eq.symm hb, permit, rfl⟩

end

/-! ## All calls together -/

section
variable {self : LinuxAtspiProvider} {c c' : AuthorityConfig} {tr : List (Move AuthorityRequest)}
  {binding binding' : AtspiElementBinding}

theorem known_of_admits {w : AuthorityWorld}
    (h : (w.log.any fun e => e.2.makes binding) = true) : Known w binding := by
  obtain ⟨⟨t, e⟩, he, hmakes⟩ := any_eq_true.mp h
  cases e with
  | bound made previous =>
    obtain rfl := of_decide_eq_true hmakes
    exact .inl ⟨previous, t, he⟩
  | boundElsewhere made =>
    obtain rfl := of_decide_eq_true hmakes
    exact .inr ⟨t, he⟩
  | _ => cases hmakes

theorem known_of_presents {w : AuthorityWorld} {request : AuthorityRequest}
    (h : (authoritySystem self).admits w request = true)
    (hpresents : request.presents = some binding) : Known w binding := by
  simp only [authoritySystem, hpresents, Option.all_some] at h
  exact known_of_admits h

/-- Each call keeps the invariant, whatever the others do. -/
theorem authoritySystem_keeps (self : LinuxAtspiProvider) : (authoritySystem self).Keeps Sound := by
  intro w t request hw hadmits
  have hknown : ∀ b, request.presents = some b → Known w b := fun _ => known_of_presents hadmits
  show Goes Sound t (request.body self) w
  cases request with
  | bindInitial endpoint acquisitionCutRef =>
    exact goes_bindInitial.attempt.goes_bind fun _ _ _ => trivial
  | reacquireAfterDefunct previous replacement acquisitionCutRef =>
    exact (goes_reacquireAfterDefunct hw (hknown _ rfl)).attempt.goes_bind fun _ _ _ => trivial
  | reacquireAfterBusReconnect previous replacement acquisitionCutRef =>
    exact (goes_reacquireAfterBusReconnect hw (hknown _ rfl)).attempt.goes_bind
      fun _ _ _ => trivial
  | markAccessibilityBusDisconnected => exact goes_markAccessibilityBusDisconnected
  | reconnectAccessibilityBus opened =>
    exact goes_reconnectAccessibilityBus.attempt.goes_bind fun _ _ _ => trivial
  | reconnectAccessibilityBusForValidation =>
    exact goes_freshBus.attempt.goes_bind fun _ _ _ => trivial
  | reconcileActionState binding read =>
    exact (goes_reconcileActionState (hknown _ rfl)).attempt.goes_bind fun _ _ _ => trivial
  | authorizeAction binding read =>
    exact goes_actionAnswered (meets_authorizeAction hw (hknown _ rfl))
  | authorizePointerAction binding read hitTest =>
    exact goes_pointerAnswered (meets_authorizePointerAction hw (hknown _ rfl))
  | authorizeActionFromObservation binding reliability observation =>
    exact goes_actionAnswered (meets_authorizeActionFromObservation (hknown _ rfl))
  | authorizeFromStateSet binding states =>
    exact goes_actionAnswered (meets_authorizeFromStateSet (hknown _ rfl))
  | authorizePointerFromObservation binding states hitTest =>
    exact goes_pointerAnswered (meets_authorizePointerFromObservation (hknown _ rfl))
  | bindElsewhere binding => exact goes_bindElsewhere

theorem sound_new (connection : Bool) (r n o : Nat) :
    Sound { state := new connection r n o, log := [] } := by
  have hnothing : ∀ e, ¬ Shared.Saw (σ := ProviderState) (ε := AuthorityEvent)
      { state := new connection r n o, log := [] } e := by
    rintro e ⟨t, ht⟩
    cases ht
  have hunbound : ∀ b, ¬ Own { state := new connection r n o, log := [] } b := by
    rintro b ⟨p, hp⟩
    exact hnothing _ hp
  refine ⟨⟨Nat.lt_succ_self _, ?_, ?_, ?_, ?_⟩, ⟨?_, ?_, ?_, ?_, ?_⟩, ⟨?_, ?_, ?_⟩, .nil _⟩
  · intro k hk
    have hlt : k < n := mem_range.mp hk
    exact ⟨Nat.lt_succ_of_lt hlt, Nat.ne_of_lt hlt⟩
  · exact fun k hk => absurd hk (hnothing _)
  · exact fun k hk => absurd hk (hnothing _)
  · exact fun k hk => absurd hk (hnothing _)
  · exact fun b hb => absurd hb (hunbound b)
  · exact fun b hb => absurd hb (hnothing _)
  · exact fun b b' hb => absurd hb (hunbound b)
  · exact fun b hb => absurd hb (hunbound b)
  · exact fun b hb => absurd hb (hnothing _)
  · rintro b ⟨fresh, hfresh⟩
    exact absurd hfresh (hnothing _)
  · intro endpoint record hget
    cases hget
  · exact fun endpoint _ b hb => absurd hb (hunbound b)

/-- An authorization of the binding that begins now may end with a permit. -/
def CanObtain (self : LinuxAtspiProvider) (c : AuthorityConfig) (binding : AtspiElementBinding) :
    Prop :=
  ∃ t request tr c' e, request.presents = some binding ∧
    Run (authoritySystem self).Step c (.begin t request :: tr) c' ∧
      (t, e) ∈ c'.log ∧ Permits binding e

/-- Nothing has fenced a binding that can obtain a permit. -/
theorem CanObtain.unfenced (h : CanObtain self c binding) (hc : Kept Sound c) :
    Own c.toShared binding ∧ ∀ e ∈ c.log, ¬ Fences binding e.2 := by
  obtain ⟨t, request, tr, c', e, hpresents, hrun, he, hpermits⟩ := h
  have hc' := hc.run (authoritySystem_keeps self) hrun
  obtain ⟨more, hmore⟩ := log_grows hrun
  obtain ⟨before, after, hlog⟩ := append_of_mem he
  obtain ⟨early, late, hearly, -, ⟨u, previous, hmade⟩, hfences⟩ :=
    (hc'.invariant.warranted _ _ _ hlog).1 binding hpermits
  obtain ⟨hsilent, hadmits⟩ : (∀ e ∈ c.log, e.1 ≠ t) ∧
      (authoritySystem self).admits c.toShared request = true := by
    obtain ⟨c₁, hs, -⟩ := Run.cons_iff.mp hrun
    obtain ⟨u, request', hm, hnone, hadmits, -⟩ | ⟨u, ready, effect, next, hm, -⟩ := hs.cases
    · cases hm
      exact ⟨hc.silent t hnone, hadmits⟩
    · cases hm
  have hsplit : c.log ++ more = early ++ (t, .readLive binding) :: (late ++ (t, e) :: after) := by
    rw [← hmore, hlog, hearly]
    simp
  have hbefore := mem_before hsplit fun hmem => hsilent _ hmem rfl
  refine ⟨?_, fun x hx => hfences x (hbefore x hx)⟩
  -- another provider's binding is not made by this one
  refine (known_of_presents hadmits hpresents).resolve_right fun helsewhere => ?_
  have hown : Own c'.toShared binding := by
    refine ⟨previous, u, ?_⟩
    rw [hlog, hearly]
    simp [hmade]
  have helsewhere' : c'.toShared.Saw (.boundElsewhere binding) := Grows.saw ⟨more, hmore⟩ helsewhere
  exact (hc'.invariant.bindings.elsewhere binding helsewhere').2.2 binding hown rfl

/-- Unfenced bindings of one endpoint are one. -/
theorem Sound.unfenced_unique {w : AuthorityWorld} (h : Sound w) (hown : Own w binding)
    (hown' : Own w binding') (hfences : ∀ e ∈ w.log, ¬ Fences binding e.2)
    (hfences' : ∀ e ∈ w.log, ¬ Fences binding' e.2) (heq : binding.endpoint = binding'.endpoint) :
    binding = binding' := by
  have hlive : ∀ b, (∀ e ∈ w.log, ¬ Fences b e.2) → ¬ Superseded w b := by
    rintro b hb ⟨fresh, u, hu⟩
    exact hb _ hu rfl
  cases hget : w.state.endpointAuthority.get binding'.endpoint with
  | none => exact absurd heq (h.table.unbound _ hget binding hown)
  | some record =>
    obtain ⟨b, -, -, -, -, hothers⟩ := h.table.records _ record hget
    have hfirst : binding = b :=
      of_not_not fun hne => hlive _ hfences (hothers _ hown heq hne)
    have hsecond : binding' = b :=
      of_not_not fun hne => hlive _ hfences' (hothers _ hown' rfl hne)
    rw [hfirst, hsecond]

/-- The entry records a fresh binding in the place of this one. -/
def AuthorityEvent.replaces (binding : AtspiElementBinding) : AuthorityEvent → Bool
  | .bound _ (some previous) => decide (previous = binding)
  | _ => false

theorem AuthorityEvent.replaces_iff {e : AuthorityEvent} :
    e.replaces binding = true ↔ ∃ fresh, e = .bound fresh (some binding) := by
  constructor
  · intro h
    unfold replaces at h
    split at h
    · rename_i fresh previous
      exact ⟨fresh, by rw [of_decide_eq_true h]⟩
    · cases h
  · rintro ⟨fresh, rfl⟩
    simp [replaces]

/-- **Authority is exclusive and is not revived.**  Of the bindings of an endpoint, one
at most can still obtain a permit; each is replaced once at most; and whoever gets a
permit read the binding's flag, for the last time, before anything fenced the binding, so
that no authorization that begins afterwards gets one. -/
theorem authority_exclusive (self : LinuxAtspiProvider) (connection : Bool) (r n o : Nat)
    (hrun : Run (authoritySystem self).Step
      (Config.start (new connection r n o)) tr c) :
    (∀ b b', CanObtain self c b → CanObtain self c b' → b.endpoint = b'.endpoint → b = b') ∧
      (∀ b, (c.log.countP fun e => e.2.replaces b) ≤ 1) ∧
        (∀ b, CanObtain self c b → ∀ e ∈ c.log, ¬ Fences b e.2) ∧
          ∀ before t e after b, c.log = before ++ (t, e) :: after → Permits b e →
            Checked t b before := by
  have hc : Kept Sound c :=
    (kept_start (sound_new connection r n o)).run (authoritySystem_keeps self) hrun
  refine ⟨?_, ?_, ?_, ?_⟩
  · intro b b' hb hb' heq
    obtain ⟨hown, hfences⟩ := hb.unfenced hc
    obtain ⟨hown', hfences'⟩ := hb'.unfenced hc
    exact hc.invariant.unfenced_unique hown hown' hfences hfences' heq
  · intro b
    refine hc.invariant.warranted.countP_le_one ?_
    rintro log ⟨t, e⟩ ⟨-, honce⟩ hreplaces ⟨u, x⟩ hx
    obtain ⟨fresh, rfl⟩ := AuthorityEvent.replaces_iff.mp hreplaces
    by_contra hboth
    obtain ⟨fresh', heq⟩ := AuthorityEvent.replaces_iff.mp (Bool.not_eq_false _ ▸ hboth)
    exact honce fresh b rfl _ hx fresh' heq
  · exact fun b hb => (hb.unfenced hc).2
  · intro before t e after b hlog hpermits
    exact (hc.invariant.warranted _ _ _ hlog).1 b hpermits

/-! ## A call that is overtaken -/

def sampleProvider : LinuxAtspiProvider :=
  { providerIncarnationRef := ⟨"provider:linux-atspi:1"⟩
    targetIncarnationRef := ⟨"target:linux-atspi:1"⟩, validationOnly := false }

def sampleEndpoint : AtspiEndpoint :=
  { busName := ":1.220", objectPath := "/org/a11y/atspi/accessible/24" }

/-- The binding with a revision, all of one endpoint and the first bus incarnation. -/
def sampleBinding (bindingRevision : Nat) : AtspiElementBinding :=
  sampleProvider.newBinding bindingRevision 1 sampleEndpoint "cut:1"

def liveStates : StateSet := { defunct := false, visible := true, showing := true }

/-- Call `t`, its first accesses. -/
def opened (t : Nat) (request : AuthorityRequest) (accesses : Nat) : List (Move AuthorityRequest) :=
  .begin t request :: List.replicate accesses (.advance t)

/-- Call 1 has checked the binding and not returned; call 2 observes it defunct, call 3
replaces it, call 4 gets a permit on the new one; then call 1 returns. -/
def overtaken : List (Move AuthorityRequest) :=
  opened 0 (.bindInitial sampleEndpoint "cut:1") 2 ++
    opened 1 (.authorizeAction (sampleBinding 1) (.states liveStates)) 6 ++
      opened 2 (.authorizeAction (sampleBinding 1) (.states { liveStates with defunct := true })) 7 ++
        opened 3 (.reacquireAfterDefunct (sampleBinding 1) sampleEndpoint "cut:1") 3 ++
          opened 4 (.authorizeAction (sampleBinding 2) (.states liveStates)) 7 ++ [.advance 1]

/-- The permit that a call gets on the binding with a revision, by a later observation. -/
def samplePermit (bindingRevision observationRevision : Nat) : AtspiActionEligibilityPermit :=
  { bindingRevision, acquisitionCutRef := "cut:1", accessibilityBusIncarnationRef := 1
    observationRevision := some observationRevision
    observationCutRef := some ("cut:linux-atspi:reconcile:" ++ toString observationRevision) }

/-- What has happened before call 1 returns. -/
def overtakenLog : List (Nat × AuthorityEvent) :=
  [(0, .busRead 1), (0, .bound (sampleBinding 1) none), (1, .readLive (sampleBinding 1)),
    (1, .readLive (sampleBinding 1)), (2, .readLive (sampleBinding 1)),
    (2, .readLive (sampleBinding 1)), (2, .observedDefunct (sampleBinding 1)), (3, .busRead 1),
    (3, .bound (sampleBinding 2) (some (sampleBinding 1))), (4, .readLive (sampleBinding 2)),
    (4, .readLive (sampleBinding 2)), (4, .actionAnswer (sampleBinding 2) (.ok (samplePermit 2 3)))]

/-- The run in which call 1 is overtaken. -/
theorem exists_overtaken_run : ∃ c, Run (authoritySystem sampleProvider).Step
        (Config.start (new true 1 1 1)) overtaken c ∧
      c.log = overtakenLog ++ [(1, .actionAnswer (sampleBinding 1) (.ok (samplePermit 1 1)))] := by
  have h : (perform (authoritySystem sampleProvider).act
      (Config.start (new true 1 1 1)) overtaken).map (fun c => c.log) =
        some (overtakenLog ++ [(1, .actionAnswer (sampleBinding 1) (.ok (samplePermit 1 1)))]) := by
    decide +kernel
  obtain ⟨c, hc, hlog⟩ := Option.map_eq_some_iff.mp h
  exact ⟨c, run_of_perform hc, hlog⟩

/-- A call that is overtaken gets its permit all the same: after the replacement the
old binding and the new one have each got a permit. -/
theorem permit_after_replacement : ∃ c before, Run (authoritySystem sampleProvider).Step
        (Config.start (new true 1 1 1)) overtaken c ∧
      c.log = before ++ [(1, .actionAnswer (sampleBinding 1) (.ok (samplePermit 1 1)))] ∧
        (2, .observedDefunct (sampleBinding 1)) ∈ before ∧
          (3, .bound (sampleBinding 2) (some (sampleBinding 1))) ∈ before ∧
            (4, .actionAnswer (sampleBinding 2) (.ok (samplePermit 2 3))) ∈ before := by
  obtain ⟨c, hrun, hlog⟩ := exists_overtaken_run
  exact ⟨c, overtakenLog, hrun, hlog, by decide +kernel, by decide +kernel, by decide +kernel⟩

/-- There the binding is replaced once, gets no permit any more, and the permit it got had
its check. -/
theorem authority_exclusive_run :
    ∃ c, Run (authoritySystem sampleProvider).Step (Config.start (new true 1 1 1))
        overtaken c ∧
      (∀ b b', CanObtain sampleProvider c b → CanObtain sampleProvider c b' →
        b.endpoint = b'.endpoint → b = b') ∧
        (c.log.countP fun e => e.2.replaces (sampleBinding 1)) ≤ 1 ∧
        ¬ CanObtain sampleProvider c (sampleBinding 1) ∧
        Checked 1 (sampleBinding 1) overtakenLog := by
  obtain ⟨c, hrun, hlog⟩ := exists_overtaken_run
  have h := authority_exclusive sampleProvider true 1 1 1 hrun
  refine ⟨c, hrun, h.1, h.2.1 _, fun hcan => ?_, h.2.2.2 _ 1 _ [] (sampleBinding 1) hlog rfl⟩
  refine h.2.2.1 _ hcan (2, .observedDefunct (sampleBinding 1)) ?_ rfl
  rw [hlog]
  exact mem_append_left _ (by decide +kernel)

end
end Localview.LinuxAtspi
