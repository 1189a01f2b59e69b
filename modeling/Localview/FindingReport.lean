import Mathlib.Data.List.Basic

/-! # Reports of findings

A report goes over a fixed list of checks.  A check that is raised gives its reason and
weighs on the verdict, either against the subject or against the evidence.  So a report
without reasons is a verified one, and a verified one had no check raised.
-/
namespace FindingReport
open List

/-- Whether a raised check speaks against the subject or leaves it open. -/
inductive Weight
  | rejects
  | leavesOpen
deriving DecidableEq

/-- The verdict on a finding. -/
inductive Verdict
  | verified
  | rejected
  | inconclusive

/-- One check, made. -/
structure Finding where
  raised : Bool
  weight : Weight
  reason : String

/-- The reasons of the checks raised, in the order made. -/
def reasons : List Finding → List String
  | [] => []
  | f :: fs => (if f.raised then [f.reason] else []) ++ reasons fs

/-- Some check of a weight is raised. -/
def raises (w : Weight) (fs : List Finding) : Bool :=
  fs.any fun f => f.raised && decide (f.weight = w)

def verdict (fs : List Finding) : Verdict :=
  if raises .rejects fs then .rejected
  else if raises .leavesOpen fs then .inconclusive
  else .verified

variable {fs : List Finding}

theorem reasons_eq_nil : reasons fs = [] ↔ ∀ f ∈ fs, f.raised = false := by
  induction fs with
  | nil => simp [reasons]
  | cons f fs ih =>
    rw [reasons, append_eq_nil_iff, ih, forall_mem_cons]
    cases f.raised <;> simp

theorem raises_eq_false {w : Weight} :
    raises w fs = false ↔ ∀ f ∈ fs, f.weight = w → f.raised = false := by
  rw [raises, any_eq_false]
  refine forall₂_congr fun f _ => ?_
  cases f.raised <;> simp

/-- What is verified had nothing raised. -/
theorem verdict_eq_verified : verdict fs = .verified ↔ ∀ f ∈ fs, f.raised = false := by
  have hboth : verdict fs = .verified ↔
      raises .rejects fs = false ∧ raises .leavesOpen fs = false := by
    rw [verdict]
    cases raises .rejects fs <;> cases raises .leavesOpen fs <;> simp
  rw [hboth, raises_eq_false, raises_eq_false]
  constructor
  · rintro ⟨hrejects, hopen⟩ f hf
    cases hweight : f.weight with
    | rejects => exact hrejects f hf hweight
    | leavesOpen => exact hopen f hf hweight
  · intro h
    exact ⟨fun f hf _ => h f hf, fun f hf _ => h f hf⟩

end FindingReport
