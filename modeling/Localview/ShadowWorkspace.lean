import Localview.AutonomousVerification

/-! # Shadow workspaces

`ShadowWorkspace` of `crates/counterfactual/src/shadow.rs`: a candidate's private directory
and the git worktree in it, from `prepare` to `cleanup` and `Drop`.

The directories and the repository's list of worktrees are the state; what each fallible
call answers is an argument (`ShadowOutcomes`).  What is inside the worktree's directory is
not represented: a removal that works takes it all.
-/
namespace Localview
open List Bool

/-- Why there is no shadow workspace. -/
inductive ShadowError
  | nonGitProject
  | gitUnavailable
  | baseRevisionMismatch (expected actual : String)
  | baseRevisionNotExact
  | notDisposable
  | unsupportedIsolation
  | emptyOverlaySet
  | tooManyFiles
  | oversizedPatch
  | invalidPath (path : String)
  | secretFile (path : String)
  | sensitiveTrackedFile (path : String)
  | symlinkEscape (path : String)
  | unsupportedBinaryFile (path : String)
  | oversizedSourceFile (path : String)
  | missingSourceFile (path : String)
  | fileHashMismatch (path : String)
  | patchTouchesUnexpectedPath (expected actual : String)
  | patchRejected (path : String)
  | shadowWorktreeCreateFailed
  | shadowCheckoutFailed
  | shadowMaterializationFailed (path : String)
  | shadowDiffFailed
  | unexpectedChangedFile (path : String)
  | worktreeSnapshotTooLarge
  | worktreeSnapshotFailed (path : String)
  | cleanupFailed
  deriving DecidableEq

/-! ## Directories and worktrees -/

/-- A path, by its components. -/
abbrev ShadowPath := List String

/-- What is on disk, and what git knows. -/
structure ShadowWorld where
  directories : List ShadowPath
  /-- What `git worktree list` names. -/
  worktrees : List ShadowPath
  deriving DecidableEq

namespace ShadowWorld
variable (world : ShadowWorld) (path : ShadowPath)

def «exists» : Bool := decide (path ∈ world.directories)

/-- A directory stands in this one. -/
def hasChild : Bool := world.directories.any fun directory =>
  decide (directory ≠ []) && decide (directory.dropLast = path)

/-- `fs::create_dir`, if it can be -/
def createDir (possible : Bool) : Option ShadowWorld :=
  if world.exists path = false ∧ possible then
    some { world with directories := path :: world.directories }
  else none

/-- `fs::remove_dir`: only an empty directory goes. -/
def removeDir : ShadowWorld :=
  if world.exists path ∧ world.hasChild path = false then
    { world with directories := world.directories.erase path }
  else world

/-- What an addition leaves of its directory and of its registration. -/
def addWorktree (directory registration : Bool) : ShadowWorld :=
  { directories := if directory then path :: world.directories else world.directories
    worktrees := if registration then path :: world.worktrees else world.worktrees }

/-- `git worktree remove --force`, where it works -/
def removeWorktree : ShadowWorld :=
  { directories := world.directories.erase path, worktrees := world.worktrees.erase path }

end ShadowWorld

/-! ## The workspace -/

/-- How `git worktree add` goes; the flags say what it leaves behind. -/
inductive AddRun
  | notStarted
  /-- Killed at the time limit. -/
  | killed (directory registration : Bool)
  | failed (directory registration : Bool)
  | added

/-- How `git worktree remove --force` goes. -/
inductive RemoveRun
  | gitNotFound
  | noStatus
  | failed
  | removed

/-- A worktree aside, and whether it is gone. -/
structure ShadowWorkspace where
  (shadowParent shadowRoot : ShadowPath)
  cleaned : Bool
  deriving DecidableEq

/-- What the calls of `prepare` answer. -/
structure ShadowOutcomes where
  /-- The checks of the candidate and the repository, which change nothing. -/
  checked : Except ShadowError Unit
  (parentCreated parentPrivate gitFound : Bool)
  add : AddRun
  rootPrivate : Bool
  /-- The removal where the root cannot be made private. -/
  removal : RemoveRun
  /-- For each overlay, its base written and its patch applied. -/
  overlays : List (Except ShadowError Unit × Except ShadowError Unit)
  /-- The removals of the cleanup after an overlay failed, and of the drop. -/
  cleanupRemoval : RemoveRun
  dropRemoval : RemoveRun

/-- An addition that ended, and that left nothing if it failed. -/
def AddRun.settled : AddRun → Bool
  | .notStarted | .killed _ _ => false
  | .failed directory registration => !directory && !registration
  | .added => true

/-- Once the private directory is there, git is found and the addition settled. -/
def ShadowOutcomes.Settled (o : ShadowOutcomes) : Prop :=
  o.checked = .ok () → o.parentCreated = true → o.parentPrivate = true →
    o.gitFound = true ∧ o.add.settled = true

namespace ShadowWorkspace

def cleanup (workspace : ShadowWorkspace) (run : RemoveRun) (world : ShadowWorld) :
    Except ShadowError ShadowCleanupProof × ShadowWorkspace × ShadowWorld :=
  have absent (world : ShadowWorld) : Bool :=
    !world.exists workspace.shadowRoot && !world.exists workspace.shadowParent
  if workspace.cleaned then (.ok ⟨true, true, absent world⟩, workspace, world)
  else
    match run with
    | .gitNotFound | .noStatus => (.error .gitUnavailable, workspace, world)
    | .failed => (.error .cleanupFailed, { workspace with cleaned := false }, world)
    | .removed =>
        have world := (world.removeWorktree workspace.shadowRoot).removeDir workspace.shadowParent
        have workspace := { workspace with cleaned := absent world }
        if workspace.cleaned then (.ok ⟨true, true, absent world⟩, workspace, world)
        else (.error .cleanupFailed, workspace, world)

def drop (workspace : ShadowWorkspace) (run : RemoveRun) (world : ShadowWorld) : ShadowWorld :=
  if workspace.cleaned then world else (workspace.cleanup run world).2.2

/-- The loop over the overlays: the first failure ends it. -/
def applyOverlays : List (Except ShadowError Unit × Except ShadowError Unit) →
    Except ShadowError Unit
  | [] => .ok ()
  | (materialized, applied) :: rest => do
      materialized
      applied
      applyOverlays rest

section
variable (o : ShadowOutcomes) (parent : ShadowPath) (world : ShadowWorld)

def createPrivateShadowParent : Except ShadowError Unit × ShadowWorld :=
  match world.createDir parent o.parentCreated with
  | none => (.error .shadowWorktreeCreateFailed, world)
  | some world =>
      if o.parentPrivate then (.ok (), world)
      else (.error .shadowWorktreeCreateFailed, world.removeDir parent)

/-- `prepare` from the addition of the worktree on. -/
def addShadow : Except ShadowError ShadowWorkspace × ShadowWorld :=
  let root := parent ++ ["worktree"]
  if o.gitFound = false then (.error .gitUnavailable, world)
  else
    match o.add with
    | .notStarted => (.error .gitUnavailable, world)
    | .killed directory registration =>
        (.error .gitUnavailable, world.addWorktree root directory registration)
    | .failed directory registration =>
        (.error .shadowWorktreeCreateFailed,
          (world.addWorktree root directory registration).removeDir parent)
    | .added =>
        let world := world.addWorktree root true true
        if o.rootPrivate = false then
          match o.removal with
          | .gitNotFound => (.error .gitUnavailable, world)
          | .noStatus | .failed => (.error .shadowWorktreeCreateFailed, world.removeDir parent)
          | .removed =>
              (.error .shadowWorktreeCreateFailed, (world.removeWorktree root).removeDir parent)
        else
          let workspace : ShadowWorkspace :=
            { shadowParent := parent, shadowRoot := root, cleaned := false }
          match applyOverlays o.overlays with
          | .ok () => (.ok workspace, world)
          | .error e =>
              -- the cleanup, then the workspace going out of scope
              let (_, workspace, world) := workspace.cleanup o.cleanupRemoval world
              (.error e, workspace.drop o.dropRemoval world)

def prepare : Except ShadowError ShadowWorkspace × ShadowWorld :=
  match o.checked with
  | .error e => (.error e, world)
  | .ok () =>
      match createPrivateShadowParent o parent world with
      | (.error e, world) => (.error e, world)
      | (.ok (), world) => addShadow o parent world

end

/-! ## What is left behind -/

/-- Nothing has the names of a shadow: its parent's name is random. -/
structure Fresh (world : ShadowWorld) (parent : ShadowPath) : Prop where
  absent : parent ∉ world.directories
  below : ∀ directory ∈ world.directories, directory ≠ [] → directory.dropLast ≠ parent
  unregistered : parent ++ ["worktree"] ∉ world.worktrees

section
variable {world : ShadowWorld} {parent : ShadowPath} {o : ShadowOutcomes}

/-- The world with the private directory. -/
def withParent (world : ShadowWorld) (parent : ShadowPath) : ShadowWorld :=
  { world with directories := parent :: world.directories }

theorem Fresh.root_directory (h : Fresh world parent) :
    parent ++ ["worktree"] ∉ world.directories := fun hin =>
  h.below _ hin (append_ne_nil_of_right_ne_nil _ (cons_ne_nil _ _))
    (dropLast_concat)

theorem Fresh.hasChild (h : Fresh world parent) :
    (withParent world parent).hasChild parent = false := by
  rw [ShadowWorld.hasChild, any_eq_false]
  intro directory hin hchild
  rw [and_eq_true, decide_eq_true_iff, decide_eq_true_iff] at hchild
  obtain rfl | hin := mem_cons.mp hin
  · have hlength := congrArg List.length hchild.2
    rw [length_dropLast] at hlength
    have := length_pos_of_ne_nil hchild.1
    omega
  · exact h.below directory hin hchild.1 hchild.2

/-- The empty directory goes, whatever is registered. -/
theorem Fresh.removeDir (h : Fresh world parent) (worktrees : List ShadowPath) :
    ({ withParent world parent with worktrees } : ShadowWorld).removeDir parent =
      { world with worktrees } := by
  have hexists : ({ withParent world parent with worktrees } : ShadowWorld).exists parent = true :=
    decide_eq_true mem_cons_self
  have hchild : ({ withParent world parent with worktrees } : ShadowWorld).hasChild parent = false :=
    h.hasChild
  rw [ShadowWorld.removeDir, if_pos ⟨hexists, hchild⟩]
  simp only [withParent, erase_cons_head]

/-- A removal that works, and then the parent: nothing is left. -/
theorem Fresh.removed (h : Fresh world parent) :
    (((withParent world parent).addWorktree (parent ++ ["worktree"]) true true).removeWorktree
      (parent ++ ["worktree"])).removeDir parent = world := by
  have hremoved : ((withParent world parent).addWorktree (parent ++ ["worktree"]) true
      true).removeWorktree (parent ++ ["worktree"]) = withParent world parent := by
    simp [ShadowWorld.addWorktree, ShadowWorld.removeWorktree]
  rw [hremoved]
  exact h.removeDir world.worktrees

/-- The new workspace, and the world it is in. -/
def newWorkspace (parent : ShadowPath) : ShadowWorkspace :=
  { shadowParent := parent, shadowRoot := parent ++ ["worktree"], cleaned := false }

def withShadow (world : ShadowWorld) (parent : ShadowPath) : ShadowWorld :=
  (withParent world parent).addWorktree (parent ++ ["worktree"]) true true

theorem Fresh.cleanup (h : Fresh world parent) :
    (newWorkspace parent).cleanup .removed (withShadow world parent) =
      (.ok ⟨true, true, true⟩, { newWorkspace parent with cleaned := true }, world) := by
  have habsent : (!world.exists (parent ++ ["worktree"]) && !world.exists parent) = true := by
    rw [ShadowWorld.exists, ShadowWorld.exists, decide_eq_false h.root_directory,
      decide_eq_false h.absent]
    rfl
  rw [ShadowWorkspace.cleanup]
  dsimp only [newWorkspace, withShadow]
  simp only [h.removed, habsent, false_eq_true, if_false, if_true]

end

/-- What happens to a prepared workspace. -/
inductive ShadowCall
  | cleanup (run : RemoveRun)
  | drop (run : RemoveRun)

def ShadowCall.run : ShadowCall → RemoveRun
  | cleanup run | drop run => run

/-- Calls in order; nothing is called on a workspace that was dropped. -/
def callAll : List ShadowCall → ShadowWorkspace → ShadowWorld → ShadowWorld
  | [], _, world => world
  | .cleanup run :: calls, workspace, world =>
      let (_, workspace, world) := workspace.cleanup run world
      callAll calls workspace world
  | .drop run :: _, workspace, world => workspace.drop run world

/-- Neither a preparation that fails nor one that is cleaned up or dropped leaves anything. -/
def LeavesNothing (o : ShadowOutcomes) (parent : ShadowPath) (world : ShadowWorld) : Prop :=
  (∀ e world', prepare o parent world = (.error e, world') → world' = world) ∧
  ∀ workspace world', prepare o parent world = (.ok workspace, world') →
    ∀ calls, calls ≠ [] → (∀ call ∈ calls, call.run = .removed) →
      callAll calls workspace world' = world

section
variable {world : ShadowWorld} {parent : ShadowPath} {o : ShadowOutcomes}

/-- Before the private directory is there, a failure leaves nothing. -/
theorem prepare_cases (h : Fresh world parent) (o : ShadowOutcomes) :
    (∃ e, prepare o parent world = (.error e, world) ∧
      ¬ (o.checked = .ok () ∧ o.parentCreated = true ∧ o.parentPrivate = true)) ∨
    (o.checked = .ok () ∧ o.parentCreated = true ∧ o.parentPrivate = true) ∧
      prepare o parent world = addShadow o parent (withParent world parent) := by
  rw [prepare]
  cases hchecked : o.checked with
  | error e => exact .inl ⟨e, rfl, fun hreached => by cases hreached.1⟩
  | ok _ =>
    have hexists : world.exists parent = false := decide_eq_false h.absent
    rw [createPrivateShadowParent, ShadowWorld.createDir]
    by_cases hcreated : o.parentCreated = true
    · rw [if_pos ⟨hexists, hcreated⟩]
      dsimp only
      by_cases hprivate : o.parentPrivate = true
      · rw [if_pos hprivate]
        exact .inr ⟨⟨rfl, hcreated, hprivate⟩, rfl⟩
      · rw [if_neg hprivate]
        refine .inl ⟨.shadowWorktreeCreateFailed, ?_, fun hreached => hprivate hreached.2.2⟩
        exact congrArg (Prod.mk _) (h.removeDir world.worktrees)
    · rw [if_neg fun hboth => hcreated hboth.2]
      exact .inl ⟨_, rfl, fun hreached => hcreated hreached.2.1⟩

/-- An addition that did not settle leaves the private directory or a registration. -/
theorem addShadow_unsettled (h : Fresh world parent)
    (hunsettled : ¬ (o.gitFound = true ∧ o.add.settled = true)) :
    ∃ e world', addShadow o parent (withParent world parent) = (.error e, world') ∧
      world' ≠ world := by
  have hparent (directory registration : Bool) :
      (withParent world parent).addWorktree (parent ++ ["worktree"]) directory registration ≠
        world := by
    intro heq
    refine h.absent ?_
    rw [← heq]
    cases directory with
    | false => exact mem_cons_self
    | true => exact mem_cons_of_mem _ mem_cons_self
  rw [addShadow]
  by_cases hfound : o.gitFound = false
  · rw [if_pos hfound]
    exact ⟨_, _, rfl, hparent false false⟩
  rw [if_neg hfound]
  cases hadd : o.add with
  | notStarted => exact ⟨_, _, rfl, hparent false false⟩
  | killed directory registration => exact ⟨_, _, rfl, hparent directory registration⟩
  | failed directory registration =>
    refine ⟨_, _, rfl, ?_⟩
    cases directory with
    | true =>
      -- the parent is not empty, and stays
      have hchild : ((withParent world parent).addWorktree (parent ++ ["worktree"]) true
          registration).hasChild parent = true := by
        refine any_eq_true.mpr ⟨parent ++ ["worktree"], mem_cons_self, ?_⟩
        simp
      rw [ShadowWorld.removeDir, if_neg fun hboth => by rw [hchild] at hboth; cases hboth.2]
      exact hparent true registration
    | false =>
      cases registration with
      | false =>
        refine absurd ⟨eq_true_of_not_eq_false hfound, ?_⟩ hunsettled
        rw [hadd]
        rfl
      | true =>
        intro heq
        refine h.unregistered ?_
        have hremoved := h.removeDir ((parent ++ ["worktree"]) :: world.worktrees)
        rw [← heq]
        show _ ∈ (({ withParent world parent with
          worktrees := (parent ++ ["worktree"]) :: world.worktrees } : ShadowWorld).removeDir
            parent).worktrees
        rw [hremoved]
        exact mem_cons_self
  | added =>
    refine absurd ⟨eq_true_of_not_eq_false hfound, ?_⟩ hunsettled
    rw [hadd]
    rfl

/-- One that settled is undone by each later failure. -/
theorem addShadow_settled (h : Fresh world parent) (hfound : o.gitFound = true)
    (hsettled : o.add.settled = true) (hremoval : o.removal = .removed)
    (hcleanup : o.cleanupRemoval = .removed) :
    (∃ e, addShadow o parent (withParent world parent) = (.error e, world)) ∨
      addShadow o parent (withParent world parent) =
        (.ok (newWorkspace parent), withShadow world parent) := by
  rw [addShadow, if_neg (by rw [hfound]; decide)]
  cases hadd : o.add with
  | notStarted =>
    rw [hadd] at hsettled
    cases hsettled
  | killed directory registration =>
    rw [hadd] at hsettled
    cases hsettled
  | failed directory registration =>
    rw [hadd] at hsettled
    obtain ⟨hdirectory, hregistration⟩ := Bool.and_eq_true_iff.mp hsettled
    rw [not_eq_true'] at hdirectory hregistration
    subst hdirectory hregistration
    exact .inl ⟨_, congrArg (Prod.mk _) (h.removeDir world.worktrees)⟩
  | added =>
    dsimp only
    by_cases hprivate : o.rootPrivate = false
    · rw [if_pos hprivate, hremoval]
      exact .inl ⟨_, congrArg (Prod.mk _) h.removed⟩
    · rw [if_neg hprivate]
      cases applyOverlays o.overlays with
      | ok _ => exact .inr rfl
      | error e =>
        refine .inl ⟨e, ?_⟩
        have hclean := h.cleanup
        rw [newWorkspace, withShadow] at hclean
        dsimp only
        rw [hcleanup, hclean]
        rfl

/-- A workspace is gone after its first cleanup, or its drop. -/
theorem callAll_new (h : Fresh world parent) {calls : List ShadowCall} (hsome : calls ≠ [])
    (hremoval : ∀ call ∈ calls, call.run = .removed) :
    callAll calls (newWorkspace parent) (withShadow world parent) = world := by
  have hrest (calls : List ShadowCall) (workspace : ShadowWorkspace)
      (hcleaned : workspace.cleaned = true) : callAll calls workspace world = world := by
    induction calls with
    | nil => rfl
    | cons call calls ih =>
      cases call with
      | cleanup run =>
        simp only [callAll, ShadowWorkspace.cleanup, if_pos hcleaned]
        exact ih
      | drop run => rw [callAll, ShadowWorkspace.drop, if_pos hcleaned]
  cases calls with
  | nil => exact absurd rfl hsome
  | cons call calls =>
    have hrun := hremoval call mem_cons_self
    cases call with
    | cleanup run =>
      obtain rfl : run = .removed := hrun
      rw [callAll, h.cleanup]
      exact hrest calls _ rfl
    | drop run =>
      obtain rfl : run = .removed := hrun
      rw [callAll, ShadowWorkspace.drop, h.cleanup]
      exact if_neg Bool.false_ne_true

/-- **Nothing is left behind, if the addition settles.**  Where removals work, a preparation
that fails, or is cleaned up or dropped, leaves the directories and the worktrees as they
were just when git was found and `git worktree add` ended, leaving nothing if it failed. -/
theorem shadow_leaves_nothing (h : Fresh world parent) (hremoval : o.removal = .removed)
    (hcleanup : o.cleanupRemoval = .removed) :
    LeavesNothing o parent world ↔ o.Settled := by
  obtain ⟨e, hprepare, hunreached⟩ | ⟨⟨hchecked, hcreated, hprivate⟩, hprepare⟩ :=
    prepare_cases h o
  · refine iff_of_true ⟨fun e' world' heq => ?_, fun workspace world' heq => ?_⟩ ?_
    · rw [hprepare] at heq
      exact (Prod.mk.inj heq).2.symm
    · rw [hprepare] at heq
      cases (Prod.mk.inj heq).1
    · exact fun hchecked hcreated hprivate =>
        absurd ⟨hchecked, hcreated, hprivate⟩ hunreached
  rw [LeavesNothing, hprepare]
  constructor
  · rintro ⟨herror, -⟩ - - -
    by_contra hunsettled
    obtain ⟨e, world', hadd, hne⟩ := addShadow_unsettled h hunsettled
    exact hne (herror e world' hadd)
  · intro hsettled
    obtain ⟨hfound, hsettled⟩ := hsettled hchecked hcreated hprivate
    obtain ⟨e, hadd⟩ | hadd := addShadow_settled h hfound hsettled hremoval hcleanup
    · rw [hadd]
      refine ⟨fun e' world' heq => (Prod.mk.inj heq).2.symm, fun workspace world' heq => ?_⟩
      cases (Prod.mk.inj heq).1
    · rw [hadd]
      refine ⟨fun e' world' heq => (by cases (Prod.mk.inj heq).1), fun workspace world' heq => ?_⟩
      obtain ⟨hworkspace, rfl⟩ := Prod.mk.inj heq
      cases hworkspace
      exact fun calls hsome hworks => callAll_new h hsome hworks

end

/-- A preparation whose calls all work, but for the addition. -/
def sampleOutcomes (add : AddRun) : ShadowOutcomes where
  checked := .ok ()
  parentCreated := true
  parentPrivate := true
  gitFound := true
  add
  rootPrivate := true
  removal := .removed
  overlays := [(.ok (), .error (.patchRejected "src/app.rs"))]
  cleanupRemoval := .removed
  dropRemoval := .removed

def sampleWorld : ShadowWorld := ⟨[["tmp"]], [["work", "app"]]⟩

theorem fresh_sample : Fresh sampleWorld ["tmp", "localview-wave9-shadow"] :=
  ⟨by decide, by decide, by decide⟩

theorem shadow_leaves_nothing_sample :
    LeavesNothing (sampleOutcomes .added) ["tmp", "localview-wave9-shadow"] sampleWorld :=
  (shadow_leaves_nothing fresh_sample rfl rfl).mpr fun _ _ _ => ⟨rfl, rfl⟩

/-- An addition that is killed at its time limit leaves the directories and the
registration. -/
theorem killed_addition_leaves_shadow : Fresh sampleWorld ["tmp", "localview-wave9-shadow"] ∧
      prepare (sampleOutcomes (.killed true true)) ["tmp", "localview-wave9-shadow"] sampleWorld =
        (.error .gitUnavailable,
          ⟨[["tmp", "localview-wave9-shadow", "worktree"], ["tmp", "localview-wave9-shadow"],
              ["tmp"]],
            [["tmp", "localview-wave9-shadow", "worktree"], ["work", "app"]]⟩) :=
  ⟨fresh_sample, by decide⟩

end ShadowWorkspace
end Localview
