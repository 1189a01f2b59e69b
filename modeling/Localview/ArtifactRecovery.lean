import Localview.ArtifactAccounting

/-! # Writes that were cut off

A store reopened after writes that failed or after its process stopped.  The file is
written under its final name, so what a cut-off write leaves is found again under the id
of the whole content, and is indexed.

From then on the id is taken: `put_after_open` says that content can be put just when
nothing else is stored under its id.  A directory is `Whole` when no id has other content;
writes that are finished, or whose rest is removed, keep it whole.
-/
namespace Localview
open StateRun List ArtifactStore Option

/-- A process with a store open, or none, and the directory. -/
structure StoreProcess where
  store : Option ArtifactStore
  dir : ArtifactDir

/-- What happens to a store on disk. -/
inductive StoreCall
  /-- The process starts anew and opens the store. -/
  | «open» (maxBytes : Nat)
  | put (kind : String) (bytes : Bytes) (outcome : ArtifactStore.WriteOutcome) (now : Int)

namespace StoreProcess

/-- A call; a put needs a store that is open, and may stop the process. -/
def perform (hash : Bytes → UInt64) (p : StoreProcess) : StoreCall → Option StoreProcess
  | .open maxBytes =>
      match ArtifactStore.open p.dir maxBytes with
      | (answer, dir) => some ⟨answer.toOption, dir⟩
  | .put kind bytes outcome now =>
      p.store.map fun store =>
        match store.put hash p.dir kind bytes outcome now with
        | (answer, dir) => ⟨answer.map Prod.snd, dir⟩

end StoreProcess

/-- The step relation of a process. -/
def StoreStep (hash : Bytes → UInt64) (p : StoreProcess) (call : StoreCall) (p' : StoreProcess) :
    Prop :=
  p.perform hash call = some p'

/-- Every content id of the directory names a regular file of content with that id. -/
def WholeDir (hash : Bytes → UInt64) (dir : ArtifactDir) : Prop :=
  ∀ id entry, dir.get id = some entry → isContentId id = true →
    ∃ contents modified, entry = .file contents modified ∧ contentId hash contents = id

/-- The write leaves no part of the bytes behind: it is done, or what it left is removed. -/
def StoreCall.LeavesWhole : StoreCall → Prop
  | .put _ bytes (.failed written removed _) _ => removed = true ∨ bytes.length ≤ written
  | .put _ bytes (.stopped written) _ => bytes.length ≤ written
  | _ => True

section
variable {hash : Bytes → UInt64} {dir dir' : ArtifactDir} {bytes : Bytes} {written : Nat}

theorem WholeDir.insert (h : WholeDir hash dir) (now : Int) :
    WholeDir hash (dir.insert (contentId hash bytes) (.file bytes now)) := by
  intro id entry hget hid
  rw [AssocMap.get_insert] at hget
  split_ifs at hget with heq
  · exact ⟨bytes, now, (some.inj hget).symm, heq.symm⟩
  · exact h id entry hget hid

theorem WholeDir.mono (h : WholeDir hash dir)
    (hsub : ∀ id entry, dir'.get id = some entry → dir.get id = some entry) :
    WholeDir hash dir' := fun id entry hget hid => h id entry (hsub id entry hget) hid

theorem ArtifactStore.Evicted.get {store store' : ArtifactStore}
    (h : ArtifactStore.Evicted store dir store' dir') (id : String) (entry : DirEntry)
    (hget : dir'.get id = some entry) : dir.get id = some entry := by
  rw [h.dir] at hget
  split_ifs at hget
  exact hget

/-- In a whole directory a store indexes whole content only. -/
theorem WholeDir.read {store : ArtifactStore} (h : WholeDir hash dir) (hr : store.Retains dir)
    {id : String} {contents : Bytes} (hread : store.read dir id = some contents) :
    contentId hash contents = id := by
  obtain ⟨item, hitem, hfile⟩ := bind_eq_some_iff.mp hread
  obtain ⟨-, hpath, hcontent, -⟩ := hr.entry id item hitem
  rw [hpath] at hfile
  obtain ⟨modified, hget⟩ := ArtifactStore.readRegularFile_eq_some.mp hfile
  obtain ⟨contents', modified', heq, hid⟩ := h id _ hget hcontent
  obtain ⟨rfl, -⟩ := DirEntry.file.inj heq
  exact hid

end

/-- A put of any content succeeds, and its id reads back the content. -/
def PutsAndReads (hash : Bytes → UInt64) (store : ArtifactStore) (dir : ArtifactDir)
    (kind : String) (bytes : Bytes) (now : Int) : Prop :=
  ∃ item store' dir', store.putWritten hash dir kind bytes now = (.ok item, store', dir') ∧
    store'.read dir' item.id = some bytes

section
variable {hash : Bytes → UInt64} {dir dir' : ArtifactDir} {store : ArtifactStore}
  {maxBytes : Nat}

/-- What opening leaves: everything with a content id is indexed. -/
theorem retains_of_open (h : ArtifactStore.open dir maxBytes = (.ok store, dir')) :
    store.Retains dir' ∧ store.maxBytes = maxBytes ∧
    (∀ id entry, dir'.get id = some entry → dir.get id = some entry) ∧
    ∀ id, isContentId id = true → store.index.get id = none → dir'.get id = none := by
  obtain ⟨e, herror, -⟩ | ⟨found, store', dir'', hopen, hretains, hevicted, hmax, -, hall, -⟩ :=
    open_spec dir maxBytes
  · rw [h] at herror
    cases herror
  rw [h] at hopen
  obtain ⟨hstore, rfl⟩ := Prod.mk.inj hopen
  cases hstore
  refine ⟨hevicted.retains hretains, hevicted.maxBytes.trans hmax, hevicted.get, ?_⟩
  intro id hid hnone
  by_contra hsome
  obtain ⟨entry, hentry⟩ := ne_none_iff_exists'.mp hsome
  have hfound := hall id entry (hevicted.get id entry hentry) hid
  have hout : id ∉ store.lru := by
    rw [(hevicted.retains hretains).mem, hnone]
    exact Bool.false_ne_true
  rw [hevicted.dir, if_pos ⟨hfound, hout⟩] at hentry
  cases hentry

/-- **Putting after opening.**  Content within the limit can be put and read back just when
what is stored under its id, if anything, is that content. -/
theorem put_after_open (h : ArtifactStore.open dir maxBytes = (.ok store, dir')) (kind : String)
    {bytes : Bytes} (hfits : bytes.length ≤ maxBytes) (now : Int) :
    PutsAndReads hash store dir' kind bytes now ↔
      ∀ contents, store.read dir' (contentId hash bytes) = some contents → contents = bytes := by
  obtain ⟨hretains, rfl, -, hindexed⟩ := retains_of_open h
  have hput := putWritten_spec hash hretains kind bytes now
  constructor
  · rintro ⟨item, store', dir'', hok, -⟩ contents hread
    rw [hok] at hput
    obtain ⟨existing, hexisting, hfile⟩ := bind_eq_some_iff.mp hread
    cases hput with
    | held existing' item hindex _ hread' =>
      rw [hexisting, some.injEq] at hindex
      rw [← hindex, hfile, some.injEq] at hread'
      exact hread'
    | stored item now store' dir'' hindex =>
      rw [hexisting] at hindex
      cases hindex
  · intro hsame
    obtain ⟨item, hok⟩ : ∃ item, (store.putWritten hash dir' kind bytes now).1 = .ok item := by
      obtain ⟨n, hprojected⟩ := projected_of_fits hash hretains hfits
      rw [ArtifactStore.putWritten, ArtifactStore.put, hprojected]
      cases hindex : store.index.get (contentId hash bytes) with
      | some existing =>
        obtain ⟨-, hpath, -, contents, hfile, hbytes⟩ := hretains.entry _ existing hindex
        have hread : store.read dir' (contentId hash bytes) = some contents := by
          rw [ArtifactStore.read, hindex]
          show readRegularFile dir' existing.path = some contents
          rw [hpath, hfile]
        obtain rfl := hsame contents hread
        rw [← hpath] at hfile
        simp only [hindex, ArtifactStore.putExisting, hbytes, hfile, ne_eq, not_true_eq_false,
          if_false]
        exact ⟨_, rfl⟩
      | none =>
        have hid := isContentId_contentId hash bytes
        have hfree := hindexed _ hid hindex
        obtain ⟨hsome, -⟩ | ⟨-, -, hwithin, hn⟩ := projected_eq_ok hprojected
        · rw [hindex] at hsome
          cases hsome
        obtain ⟨store', dir'', hnew, -⟩ := putNew_spec
          hretains kind now hid hindex hfree hwithin hn
        simp only [hindex, hfree, hnew]
        exact ⟨_, rfl⟩
    rw [hok] at hput
    exact ⟨item, _, _, Prod.ext hok rfl, (hput.kept hretains).2.2.1⟩

end
/-! ## Over a run -/

section
variable {hash : Bytes → UInt64} {p p' : StoreProcess} {call : StoreCall} {tr : List StoreCall}

/-- A store that is open keeps its index. -/
def StoreProcess.Sound (p : StoreProcess) : Prop :=
  ∀ store, p.store = some store → store.Retains p.dir

/-- Every call keeps the index, and one that leaves no part of its bytes behind keeps the
directory whole. -/
theorem StoreProcess.Sound.step (h : p.Sound) (hs : StoreStep hash p call p') :
    p'.Sound ∧ (WholeDir hash p.dir → call.LeavesWhole → WholeDir hash p'.dir) := by
  cases call with
  | «open» maxBytes =>
    have hp : p' = ⟨(ArtifactStore.open p.dir maxBytes).1.toOption,
        (ArtifactStore.open p.dir maxBytes).2⟩ := (some.inj hs).symm
    subst hp
    obtain ⟨e, herror, -⟩ | ⟨found, store, dir, hopen, hretains, hevicted, -⟩ :=
      open_spec p.dir maxBytes
    · rw [herror]
      exact ⟨fun store hstore => (by cases hstore), fun hwhole _ => hwhole⟩
    · rw [hopen]
      refine ⟨fun store' hstore => ?_, fun hwhole _ => hwhole.mono hevicted.get⟩
      cases hstore
      exact hevicted.retains hretains
  | put kind bytes outcome now =>
    obtain ⟨store, hstore, hp⟩ := map_eq_some_iff.mp hs
    have hretains := h store hstore
    have hput := put_spec hash hretains kind bytes outcome now
    dsimp only at hp
    generalize store.put hash p.dir kind bytes outcome now = answer at hp hput
    subst hp
    have hcut : ∀ written, bytes.length ≤ written → bytes.take written = bytes := fun written h =>
      take_of_length_le h
    cases hput with
    | refused e =>
      refine ⟨fun store' hstore' => ?_, fun hwhole _ => hwhole⟩
      cases hstore'
      exact hretains
    | held existing item hindex _ _ hid hpath hbytes =>
      refine ⟨fun store' hstore' => ?_, fun hwhole _ => hwhole⟩
      cases hstore'
      exact (hretains.replace hindex hid hpath hbytes).1
    | stored item store₁ dir₁ _ _ _ _ hretains₁ _ hevicted =>
      refine ⟨fun store' hstore' => ?_, fun hwhole _ => (hwhole.insert now).mono hevicted.get⟩
      cases hstore'
      exact hevicted.retains hretains₁
    | failed written removed error hfree houtcome =>
      subst houtcome
      cases removed with
      | true =>
        refine ⟨fun store' hstore' => ?_, fun hwhole _ => hwhole⟩
        cases hstore'
        exact hretains
      | false =>
        refine ⟨fun store' hstore' => ?_, fun hwhole hleaves => ?_⟩
        · cases hstore'
          exact hretains.insertFile _ hfree
        · have hall : bytes.length ≤ written := hleaves.resolve_left Bool.false_ne_true
          show WholeDir hash (p.dir.insert (contentId hash bytes) (.file (bytes.take written) now))
          rw [hcut written hall]
          exact hwhole.insert now
    | stopped written hfree houtcome =>
      subst houtcome
      refine ⟨fun store' hstore' => (by cases hstore'), fun hwhole hleaves => ?_⟩
      show WholeDir hash (p.dir.insert (contentId hash bytes) (.file (bytes.take written) now))
      rw [hcut written hleaves]
      exact hwhole.insert now

end
/-- A whole directory can always be opened. -/
theorem open_of_whole {hash : Bytes → UInt64} {dir : ArtifactDir} (h : WholeDir hash dir)
    (maxBytes : Nat) :
    ∃ store dir', ArtifactStore.open dir maxBytes = (.ok store, dir') := by
  obtain ⟨e, -, herror⟩ | ⟨-, store, dir', hopen, -⟩ := open_spec dir maxBytes
  · obtain ⟨id, hmem, hid⟩ := restoredFiles_error herror
    obtain ⟨contents, modified, hfile, -⟩ := h id _ (dir.mem_entries.mp hmem) hid
    cases hfile
  · exact ⟨store, dir', hopen⟩

/-- **What a reopened store serves.**  After any run of openings and puts in which writes
fail or the process stops after any part of the bytes, a reopened store takes content
within its limit, and reads it back under the id returned, just when it stores nothing else
under that id.  As long as every write of the run was finished or what it left was removed,
the store can be reopened, and what it stores under an id is content of that id: no part of
a write is served, and only a collision of the hash is in the way of a put. -/
theorem reopened_store_serves {hash : Bytes → UInt64} {start p : StoreProcess}
    {tr : List StoreCall} (hstart : start.store = none) (hrun : Run (StoreStep hash) start tr p) :
    (∀ maxBytes store dir, ArtifactStore.open p.dir maxBytes = (.ok store, dir) →
      ∀ kind bytes now, bytes.length ≤ maxBytes →
        (PutsAndReads hash store dir kind bytes now ↔
          ∀ contents, store.read dir (contentId hash bytes) = some contents →
            contents = bytes)) ∧
    (WholeDir hash start.dir → (∀ call ∈ tr, call.LeavesWhole) →
      ∀ maxBytes, ∃ store dir, ArtifactStore.open p.dir maxBytes = (.ok store, dir) ∧
        ∀ id contents, store.read dir id = some contents → contentId hash contents = id) := by
  refine ⟨fun maxBytes store dir hopen kind bytes now hfits =>
    put_after_open hopen kind hfits now, fun hwhole hleaves maxBytes => ?_⟩
  have hsound : start.Sound := by
    intro store hstore
    rw [hstart] at hstore
    cases hstore
  have hrest : p.Sound ∧ WholeDir hash p.dir := by
    refine hrun.forward_induction (P := fun tr p => (∀ call ∈ tr, call.LeavesWhole) →
      p.Sound ∧ WholeDir hash p.dir) (fun _ => ⟨hsound, hwhole⟩) ?_ hleaves
    intro tr p call p' _ ih hs hleaves
    obtain ⟨hsound, hwhole⟩ := ih fun call hcall => hleaves call (mem_append_left _ hcall)
    obtain ⟨hsound', hwhole'⟩ := hsound.step hs
    exact ⟨hsound', hwhole' hwhole (hleaves call (mem_append_right _ mem_cons_self))⟩
  obtain ⟨store, dir, hopen⟩ := open_of_whole hrest.2 maxBytes
  obtain ⟨hretains, -, hsub, -⟩ := retains_of_open hopen
  exact ⟨store, dir, hopen, fun id contents hread => (hrest.2.mono hsub).read hretains hread⟩

/-- A write that had all its bytes when the process stopped: the content is served. -/
theorem reopened_store_serves_run :
    ∃ p store dir, Run (StoreStep sampleHash) ⟨none, .empty⟩
        [.open 8, .put "text" [1, 2] (.stopped 2) 1] p ∧
      ArtifactStore.open p.dir 8 = (.ok store, dir) ∧
      store.read dir "lv-aaeb81f2de0f7963" = some [1, 2] ∧
      PutsAndReads sampleHash store dir "text" [1, 2] 2 := by
  have hrun : Run (StoreStep sampleHash) ⟨none, .empty⟩
      [.open 8, .put "text" [1, 2] (.stopped 2) 1]
      ⟨none, AssocMap.empty.insert "lv-aaeb81f2de0f7963" (.file [1, 2] 1)⟩ :=
    Run.cons rfl (Run.cons rfl (Run.nil _))
  have hserves := reopened_store_serves rfl hrun
  obtain ⟨store, dir, hopen, -⟩ := hserves.2
    (fun id entry hget => by rw [AssocMap.get_empty] at hget; cases hget)
    (fun call hcall => by
      simp only [mem_cons, not_mem_nil, or_false] at hcall
      rcases hcall with rfl | rfl
      · exact trivial
      · exact le_rfl) 8
  have hread : store.read dir "lv-aaeb81f2de0f7963" = some [1, 2] := by
    obtain rfl := congrArg Prod.snd hopen
    obtain rfl := Except.ok.inj (congrArg Prod.fst hopen)
    rfl
  refine ⟨_, store, dir, hrun, hopen, hread, ?_⟩
  refine (hserves.1 8 store dir hopen "text" [1, 2] 2 (by decide)).mpr fun contents hcontents => ?_
  have hid : contentId sampleHash [1, 2] = "lv-aaeb81f2de0f7963" := by decide
  rw [hid, hread] at hcontents
  exact (some.inj hcontents).symm

/-- The process stops with one of two bytes written: on reopening the store serves the one
byte as the artifact, and the two bytes cannot be put. -/
theorem torn_write_is_served :
    ∃ p store dir, Run (StoreStep sampleHash) ⟨none, .empty⟩
        [.open 8, .put "text" [1, 2] (.stopped 1) 1] p ∧
      ArtifactStore.open p.dir 8 = (.ok store, dir) ∧
      store.read dir (contentId sampleHash [1, 2]) = some [1] ∧
      (store.put sampleHash dir "text" [1, 2] .written 2).1.map Prod.fst = some (.error
        ("physical artifact id collision detected; " ++
          "retained size differs for lv-aaeb81f2de0f7963")) := by
  let torn : ArtifactDir := AssocMap.empty.insert "lv-aaeb81f2de0f7963" (.file [1] 1)
  have hrun : Run (StoreStep sampleHash) ⟨none, .empty⟩
      [.open 8, .put "text" [1, 2] (.stopped 1) 1] ⟨none, torn⟩ :=
    Run.cons rfl (Run.cons rfl (Run.nil _))
  obtain ⟨store, dir, hopen⟩ : ∃ store dir, ArtifactStore.open torn 8 = (.ok store, dir) :=
    ⟨_, _, rfl⟩
  refine ⟨_, store, dir, hrun, hopen, ?_, ?_⟩
  all_goals
    obtain rfl := congrArg Prod.snd hopen
    obtain rfl := Except.ok.inj (congrArg Prod.fst hopen)
    decide +kernel

end Localview
