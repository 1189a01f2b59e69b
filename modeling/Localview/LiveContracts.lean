import Localview.UxContracts

/-! # Verdicts on partial facts

Live facts know some of what there is: the members of a set, a key's value, a lower bound
of a count, and which kinds are complete.  Facts extend others when they keep all of that
(`LiveRuntimeFacts.Extends`).  A verdict of pass or fail rests on what is known, so that
every extension keeps it; and a verdict of unknown leaves both open, or its subject has
not been observed.
-/
namespace Localview
open List OrderedSet

section
variable {F V : Type} {live live' : LiveRuntimeFacts F V}

/-- Facts that keep what others know and may know more. -/
structure LiveRuntimeFacts.Extends (live live' : LiveRuntimeFacts F V) : Prop where
  domains : ∀ domain ∈ live.completeDomains, domain ∈ live'.completeDomains
  selectors : ∀ s ∈ live.facts.selectors.toList, s ∈ live'.facts.selectors.toList
  allSelectors : .selectors ∈ live.completeDomains →
    ∀ s ∈ live'.facts.selectors.toList, s ∈ live.facts.selectors.toList
  metrics : ∀ key value, live.facts.metrics.get key = some value →
    live'.facts.metrics.get key = some value
  allMetrics : .metrics ∈ live.completeDomains →
    ∀ key, live'.facts.metrics.get key = live.facts.metrics.get key
  values : ∀ key value, live.facts.values.get key = some value →
    live'.facts.values.get key = some value
  allValues : .values ∈ live.completeDomains →
    ∀ key, live'.facts.values.get key = live.facts.values.get key
  issueCodes : ∀ code ∈ live.facts.issueCodes.toList, code ∈ live'.facts.issueCodes.toList
  allIssueCodes : .issueCodes ∈ live.completeDomains →
    ∀ code ∈ live'.facts.issueCodes.toList, code ∈ live.facts.issueCodes.toList
  unnamed : live.facts.unnamedInteractiveCount ≤ live'.facts.unnamedInteractiveCount
  allUnnamed : .interactiveNames ∈ live.completeDomains →
    live'.facts.unnamedInteractiveCount = live.facts.unnamedInteractiveCount
  metricKeys : ∀ key ∈ live.metricKeys.toList, key ∈ live'.metricKeys.toList
  valueKeys : ∀ key ∈ live.valueKeys.toList, key ∈ live'.valueKeys.toList

theorem LiveRuntimeFacts.Extends.refl (live : LiveRuntimeFacts F V) : live.Extends live where
  domains _ h := h
  selectors _ h := h
  allSelectors _ _ h := h
  metrics _ _ h := h
  allMetrics _ _ := rfl
  values _ _ h := h
  allValues _ _ := rfl
  issueCodes _ h := h
  allIssueCodes _ _ h := h
  unnamed := Nat.le_refl _
  allUnnamed _ := rfl
  metricKeys _ h := h
  valueKeys _ h := h

/-- One more kind that is complete. -/
theorem LiveRuntimeFacts.Extends.complete (live : LiveRuntimeFacts F V)
    (domain : RuntimeFactDomain) :
    live.Extends { live with completeDomains := domain :: live.completeDomains } :=
  { Extends.refl live with domains := fun _ h => mem_cons_of_mem domain h }

/-- A selector that is there after all. -/
theorem LiveRuntimeFacts.Extends.addSelector (selector : String)
    (hopen : .selectors ∉ live.completeDomains) :
    live.Extends { live with
      facts := { live.facts with selectors := live.facts.selectors.insert selector } } :=
  { Extends.refl live with
    selectors := fun _ h => mem_insert.mpr (.inr h)
    allSelectors := fun hcomplete => absurd hcomplete hopen }

theorem LiveRuntimeFacts.Extends.addIssueCode (code : String)
    (hopen : .issueCodes ∉ live.completeDomains) :
    live.Extends { live with
      facts := { live.facts with issueCodes := live.facts.issueCodes.insert code } } :=
  { Extends.refl live with
    issueCodes := fun _ h => mem_insert.mpr (.inr h)
    allIssueCodes := fun hcomplete => absurd hcomplete hopen }

/-- An unnamed element more than were counted. -/
theorem LiveRuntimeFacts.Extends.addUnnamed (hopen : .interactiveNames ∉ live.completeDomains) :
    live.Extends { live with facts := { live.facts with
      unnamedInteractiveCount := live.facts.unnamedInteractiveCount + 1 } } :=
  { Extends.refl live with
    unnamed := Nat.le_succ _
    allUnnamed := fun hcomplete => absurd hcomplete hopen }

/-- What a contract is about has been observed; a set or a count is there to be looked at. -/
def LiveRuntimeFacts.Observes (live : LiveRuntimeFacts F V) : ContractPredicate F V → Prop
  | .metricAtMost metric _ | .metricAtLeast metric _ =>
      metric ∈ live.metricKeys.toList ∧ live.facts.metrics.get metric ≠ none
  | .equals key _ => key ∈ live.valueKeys.toList ∧ live.facts.values.get key ≠ none
  | _ => True

variable [Binary64 F] [DecidableEq V] {contract : UxContract F V}
  {predicate : ContractPredicate F V} {exception : Option ContractException} {revision : String}

/-- The verdict where no exception applies. -/
def liveVerdict (live : LiveRuntimeFacts F V) (predicate : ContractPredicate F V) :
    ContractVerdict :=
  match decisivePredicate live.facts predicate with
  | some decided => decided.1
  | none => if domainKnown live predicate then (evaluatePredicate live.facts predicate).1
      else .unknown

theorem boolResult_verdict (holds : Bool) (passMessage failMessage : String) :
    (boolResult holds passMessage failMessage).1 = if holds then .pass else .fail := by
  unfold boolResult
  split_ifs <;> rfl

section
/-- Something is judged by its presence, and by its absence where its kind is complete. -/
def presenceVerdict (present complete : Prop) [Decidable present] [Decidable complete]
    (there absent : ContractVerdict) : ContractVerdict :=
  if present then there else if complete then absent else .unknown

/-- A key's value is judged where the key is known. -/
def keyVerdict {α : Type} (known : Prop) [Decidable known] (found : Option α)
    (holds : α → Bool) : ContractVerdict :=
  if known then
    match found with
    | some value => if holds value then .pass else .fail
    | none => .unknown
  else .unknown

def kindVerdict (live : LiveRuntimeFacts F V) : ContractPredicate F V → ContractVerdict
  | .exists selector => presenceVerdict (selector ∈ live.facts.selectors.toList)
      (.selectors ∈ live.completeDomains) .pass .fail
  | .notExists selector => presenceVerdict (selector ∈ live.facts.selectors.toList)
      (.selectors ∈ live.completeDomains) .fail .pass
  | .noIssueCode code => presenceVerdict (code ∈ live.facts.issueCodes.toList)
      (.issueCodes ∈ live.completeDomains) .fail .pass
  | .everyInteractiveNamed => presenceVerdict (0 < live.facts.unnamedInteractiveCount)
      (.interactiveNames ∈ live.completeDomains) .fail .pass
  | .metricAtMost metric bound =>
      keyVerdict (metric ∈ live.metricKeys.toList ∨ .metrics ∈ live.completeDomains)
        (live.facts.metrics.get metric) (fun value => Binary64.le value bound)
  | .metricAtLeast metric bound =>
      keyVerdict (metric ∈ live.metricKeys.toList ∨ .metrics ∈ live.completeDomains)
        (live.facts.metrics.get metric) (fun value => Binary64.le bound value)
  | .equals key value =>
      keyVerdict (key ∈ live.valueKeys.toList ∨ .values ∈ live.completeDomains)
        (live.facts.values.get key) (fun actual => decide (actual = value))

theorem liveVerdict_eq : liveVerdict live predicate = kindVerdict live predicate := by
  unfold liveVerdict decisivePredicate kindVerdict
  cases predicate with
  | «exists» name | notExists name =>
    by_cases hmem : name ∈ live.facts.selectors.toList <;>
      simp [domainKnown, evaluatePredicate, boolResult_verdict, presenceVerdict,
        OrderedSet.contains, hmem]
  | noIssueCode name =>
    by_cases hmem : name ∈ live.facts.issueCodes.toList <;>
      simp [domainKnown, evaluatePredicate, boolResult_verdict, presenceVerdict,
        OrderedSet.contains, hmem]
  | everyInteractiveNamed =>
    by_cases hmem : 0 < live.facts.unnamedInteractiveCount
    · simp [presenceVerdict, hmem]
    · have hzero : live.facts.unnamedInteractiveCount = 0 := by omega
      simp [domainKnown, evaluatePredicate, boolResult_verdict, presenceVerdict, hzero]
  | metricAtMost key bound | metricAtLeast key bound =>
    cases hget : live.facts.metrics.get key <;>
      simp [domainKnown, evaluatePredicate, boolResult_verdict, keyVerdict, hget]
  | equals key value =>
    cases hget : live.facts.values.get key <;>
      simp [domainKnown, evaluatePredicate, boolResult_verdict, keyVerdict, hget]

end

/-! ## What is decided is kept -/

theorem presenceVerdict_mono {present present' complete complete' : Prop} [Decidable present]
    [Decidable present'] [Decidable complete] [Decidable complete']
    {there absent verdict : ContractVerdict} (hpresent : present → present')
    (hcomplete : complete → complete') (hall : complete → present' → present)
    (hverdict : verdict ≠ .unknown) (h : presenceVerdict present complete there absent = verdict) :
    presenceVerdict present' complete' there absent = verdict := by
  unfold presenceVerdict at h ⊢
  rcases ite_eq_iff.mp h with ⟨hp, h⟩ | ⟨hp, h⟩
  · rw [if_pos (hpresent hp)]
    exact h
  · rcases ite_eq_iff.mp h with ⟨hc, h⟩ | ⟨hc, h⟩
    · rw [if_neg fun hp' => hp (hall hc hp'), if_pos (hcomplete hc)]
      exact h
    · exact absurd h.symm hverdict

theorem keyVerdict_mono {α : Type} {known known' : Prop} [Decidable known] [Decidable known']
    {found found' : Option α} {holds : α → Bool} {verdict : ContractVerdict}
    (hknown : known → known') (hfound : ∀ value, found = some value → found' = some value)
    (hverdict : verdict ≠ .unknown) (h : keyVerdict known found holds = verdict) :
    keyVerdict known' found' holds = verdict := by
  unfold keyVerdict at h ⊢
  rcases ite_eq_iff.mp h with ⟨hk, h⟩ | ⟨hk, h⟩
  · rw [if_pos (hknown hk)]
    cases found with
    | none => exact absurd h.symm hverdict
    | some value =>
      rw [hfound value rfl]
      exact h
  · exact absurd h.symm hverdict

/-- What is decided is decided alike on every extension. -/
theorem liveVerdict_mono (h : live.Extends live') {verdict : ContractVerdict}
    (hverdict : verdict ≠ .unknown) (hlive : liveVerdict live predicate = verdict) :
    liveVerdict live' predicate = verdict := by
  rw [liveVerdict_eq] at hlive ⊢
  cases predicate with
  | «exists» selector | notExists selector =>
    exact presenceVerdict_mono (h.selectors selector) (h.domains _)
      (fun hcomplete => h.allSelectors hcomplete selector) hverdict hlive
  | noIssueCode code =>
    exact presenceVerdict_mono (h.issueCodes code) (h.domains _)
      (fun hcomplete => h.allIssueCodes hcomplete code) hverdict hlive
  | everyInteractiveNamed =>
    have hunnamed := h.unnamed
    exact presenceVerdict_mono (fun hpresent => by omega) (h.domains _)
      (fun hcomplete hpresent => h.allUnnamed hcomplete ▸ hpresent) hverdict hlive
  | metricAtMost metric bound | metricAtLeast metric bound =>
    exact keyVerdict_mono (Or.imp (h.metricKeys metric) (h.domains _)) (h.metrics metric) hverdict
      hlive
  | equals key value =>
    exact keyVerdict_mono (Or.imp (h.valueKeys key) (h.domains _)) (h.values key) hverdict hlive

/-! ## What is unknown is open -/

/-- Some extension decides so. -/
def LiveRuntimeFacts.MayDecide (live : LiveRuntimeFacts F V) (predicate : ContractPredicate F V)
    (verdict : ContractVerdict) : Prop :=
  ∃ live', live.Extends live' ∧ liveVerdict live' predicate = verdict

theorem presenceVerdict_unknown {present complete : Prop} [Decidable present] [Decidable complete]
    {there absent : ContractVerdict} (hthere : there ≠ .unknown) (habsent : absent ≠ .unknown)
    (h : presenceVerdict present complete there absent = .unknown) : ¬present ∧ ¬complete := by
  unfold presenceVerdict at h
  split_ifs at h with hpresent hcomplete
  · exact absurd h hthere
  · exact absurd h habsent
  · exact ⟨hpresent, hcomplete⟩

theorem keyVerdict_unknown {α : Type} {known : Prop} [Decidable known] {found : Option α}
    {holds : α → Bool} (h : keyVerdict known found holds = .unknown) :
    ¬(known ∧ found ≠ none) := by
  rintro ⟨hknown, hfound⟩
  obtain ⟨value, rfl⟩ := Option.ne_none_iff_exists'.mp hfound
  unfold keyVerdict at h
  rw [if_pos hknown] at h
  cases hholds : holds value <;> simp [hholds] at h

/-- What is not known to be there may be, and may be known not to be. -/
theorem mayDecide_selector {selector : String}
    (hmem : selector ∉ live.facts.selectors.toList) (hopen : .selectors ∉ live.completeDomains) :
    (live.MayDecide (.exists selector) .pass ∧ live.MayDecide (.exists selector) .fail) ∧
      live.MayDecide (.notExists selector) .pass ∧ live.MayDecide (.notExists selector) .fail := by
  have hadd := LiveRuntimeFacts.Extends.addSelector selector hopen
  have hcomplete := LiveRuntimeFacts.Extends.complete live .selectors
  refine ⟨⟨⟨_, hadd, ?_⟩, ⟨_, hcomplete, ?_⟩⟩, ⟨_, hcomplete, ?_⟩, ⟨_, hadd, ?_⟩⟩
  · rw [liveVerdict_eq, kindVerdict, presenceVerdict, if_pos (mem_insert.mpr (.inl rfl))]
  · rw [liveVerdict_eq, kindVerdict, presenceVerdict, if_neg hmem, if_pos mem_cons_self]
  · rw [liveVerdict_eq, kindVerdict, presenceVerdict, if_neg hmem, if_pos mem_cons_self]
  · rw [liveVerdict_eq, kindVerdict, presenceVerdict, if_pos (mem_insert.mpr (.inl rfl))]

theorem mayDecide_noIssueCode {code : String}
    (hmem : code ∉ live.facts.issueCodes.toList) (hopen : .issueCodes ∉ live.completeDomains) :
    live.MayDecide (.noIssueCode code) .pass ∧ live.MayDecide (.noIssueCode code) .fail := by
  refine ⟨⟨_, .complete live .issueCodes, ?_⟩, ⟨_, .addIssueCode code hopen, ?_⟩⟩
  · rw [liveVerdict_eq, kindVerdict, presenceVerdict, if_neg hmem, if_pos mem_cons_self]
  · rw [liveVerdict_eq, kindVerdict, presenceVerdict, if_pos (mem_insert.mpr (.inl rfl))]

theorem mayDecide_everyInteractiveNamed (hzero : ¬0 < live.facts.unnamedInteractiveCount)
    (hopen : .interactiveNames ∉ live.completeDomains) :
    live.MayDecide .everyInteractiveNamed .pass ∧ live.MayDecide .everyInteractiveNamed .fail := by
  refine ⟨⟨_, .complete live .interactiveNames, ?_⟩, ⟨_, .addUnnamed hopen, ?_⟩⟩
  · rw [liveVerdict_eq, kindVerdict, presenceVerdict, if_neg hzero, if_pos mem_cons_self]
  · rw [liveVerdict_eq, kindVerdict, presenceVerdict, if_pos (Nat.succ_pos _)]

/-- Where the verdict is unknown, both verdicts are open, or nothing is observed of what
the contract is about. -/
theorem liveVerdict_unknown (h : liveVerdict live predicate = .unknown) :
    live.MayDecide predicate .pass ∧ live.MayDecide predicate .fail ∨ ¬live.Observes predicate := by
  rw [liveVerdict_eq] at h
  cases predicate with
  | «exists» selector =>
    obtain ⟨hmem, hopen⟩ := presenceVerdict_unknown (by decide) (by decide) h
    exact .inl (mayDecide_selector hmem hopen).1
  | notExists selector =>
    obtain ⟨hmem, hopen⟩ := presenceVerdict_unknown (by decide) (by decide) h
    exact .inl (mayDecide_selector hmem hopen).2
  | noIssueCode code =>
    obtain ⟨hmem, hopen⟩ := presenceVerdict_unknown (by decide) (by decide) h
    exact .inl (mayDecide_noIssueCode hmem hopen)
  | everyInteractiveNamed =>
    obtain ⟨hzero, hopen⟩ := presenceVerdict_unknown (by decide) (by decide) h
    exact .inl (mayDecide_everyInteractiveNamed hzero hopen)
  | metricAtMost key _ | metricAtLeast key _ | equals key _ =>
    exact .inr fun hobserved => keyVerdict_unknown h ⟨.inl hobserved.1, hobserved.2⟩

/-! ## With exceptions -/

def applies (contract : UxContract F V) (exception : Option ContractException)
    (revision : String) : Option ContractException :=
  exception.filter fun exception => exception.contractId == contract.id &&
    exception.expiresRevision.all fun bound => bound == revision

/-- An exception that applies excepts whatever the facts; else the facts decide. -/
theorem evaluateLiveContract_verdict :
    (evaluateLiveContract contract live exception revision).verdict =
      if (applies contract exception revision).isSome then .excepted
      else liveVerdict live contract.predicate := by
  have hfilter : exception.filter (fun exception => exception.contractId == contract.id &&
      exception.expiresRevision.all fun bound => bound == revision) =
        applies contract exception revision := rfl
  unfold evaluateLiveContract
  simp only [hfilter]
  cases happlies : applies contract exception revision with
  | some applied =>
    have hid : (applied.contractId == contract.id) = true :=
      (Bool.and_eq_true_iff.mp (Option.filter_eq_some_iff.mp happlies).2).1
    simp [decisivePartialResult, UxContract.evaluate, hid]
  | none =>
    unfold liveVerdict decisivePartialResult
    cases decisivePredicate live.facts contract.predicate with
    | some decided => rfl
    | none =>
      by_cases hknown : domainKnown live contract.predicate = true <;>
        simp [UxContract.evaluate, hknown]

/-- A contract that passes or fails on live facts does so on all facts that extend them; it
is unknown only where some of these would pass it and others fail it, or where nothing has
been observed of what it is about. -/
theorem live_contract_three_valued (contract : UxContract F V) (live : LiveRuntimeFacts F V)
    (exception : Option ContractException) (revision : String) :
    (∀ live' verdict, live.Extends live' → verdict = .pass ∨ verdict = .fail →
      (evaluateLiveContract contract live exception revision).verdict = verdict →
      (evaluateLiveContract contract live' exception revision).verdict = verdict) ∧
    ((evaluateLiveContract contract live exception revision).verdict = .unknown →
      (∃ passing failing, live.Extends passing ∧ live.Extends failing ∧
        (evaluateLiveContract contract passing exception revision).verdict = .pass ∧
        (evaluateLiveContract contract failing exception revision).verdict = .fail) ∨
      ¬live.Observes contract.predicate) := by
  simp only [evaluateLiveContract_verdict]
  by_cases happlies : (applies contract exception revision).isSome
  · simp only [happlies, if_true]
    exact ⟨fun _ _ _ _ h => h, nofun⟩
  · simp only [happlies]
    constructor
    · intro live' verdict hextends hverdict h
      exact liveVerdict_mono hextends (by rcases hverdict with rfl | rfl <;> decide) h
    · intro h
      rcases liveVerdict_unknown h with ⟨⟨passing, hpassing, hpass⟩, failing, hfailing, hfail⟩ | hnot
      · exact .inl ⟨passing, failing, hpassing, hfailing, hpass, hfail⟩
      · exact .inr hnot

end
end Localview
