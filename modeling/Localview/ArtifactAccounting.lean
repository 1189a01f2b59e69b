import Localview.ArtifactStore

/-! # The accounts of an artifact store

What holds of a store after any puts when the file system does not fail it: the eviction
order lists the index, the bytes counted are those indexed, the limit holds after every
put, and the projection is what the put leaves.

The eviction order is the order in which artifacts came to be stored: those found on
opening by the times of their files, and each new one after them.  Content that is held
already stays where it stands when it is put again, so this is not the order of last use.
-/
namespace Localview
open StateRun RecencyQueue List AssocMap ArtifactStore

namespace ArtifactStore

/-- A put whose write is complete. -/
def putWritten (hash : Bytes → UInt64) (store : ArtifactStore) (dir : ArtifactDir)
    (kind : String) (bytes : Bytes) (now : Int) :
    Except String ArtifactMeta × ArtifactStore × ArtifactDir :=
  match store.put hash dir kind bytes .written now with
  | (some (answer, store), dir) => (answer, store, dir)
  | (none, dir) => (.error "the process stopped", store, dir)

/-- The bytes that the index counts. -/
def indexedBytes (store : ArtifactStore) : Nat := (store.index.entries.map (·.2.bytes)).sum

end ArtifactStore

/-- A put, its answer, and whether the content was new to the index. -/
structure PutCall where
  kind : String
  bytes : Bytes
  now : Int
  answer : Except String ArtifactMeta
  fresh : Bool

def PutCall.uses (call : PutCall) : Option String := call.answer.toOption.map (·.id)

/-- The id that a put stored. -/
def PutCall.stores (call : PutCall) : Option String := if call.fresh then call.uses else none

/-- A store with its directory. -/
structure StoreOnDisk where
  store : ArtifactStore
  dir : ArtifactDir

def StoreOnDisk.putCall (hash : Bytes → UInt64) (s : StoreOnDisk) (kind : String) (bytes : Bytes)
    (now : Int) : PutCall :=
  { kind, bytes, now
    answer := (s.store.putWritten hash s.dir kind bytes now).1
    fresh := (s.store.index.get (contentId hash bytes)).isNone }

def StoreOnDisk.afterPut (hash : Bytes → UInt64) (s : StoreOnDisk) (kind : String) (bytes : Bytes)
    (now : Int) : StoreOnDisk :=
  ⟨(s.store.putWritten hash s.dir kind bytes now).2.1,
    (s.store.putWritten hash s.dir kind bytes now).2.2⟩

/-- One put, the store opened before it. -/
inductive PutStep (hash : Bytes → UInt64) (s : StoreOnDisk) : PutCall → StoreOnDisk → Prop
  | put (kind : String) (bytes : Bytes) (now : Int) :
      PutStep hash s (s.putCall hash kind bytes now) (s.afterPut hash kind bytes now)

theorem PutStep.unique (hash : Bytes → UInt64) (s : StoreOnDisk) (call : PutCall)
    (s₁ s₂ : StoreOnDisk) (h₁ : PutStep hash s call s₁) (h₂ : PutStep hash s call s₂) :
    s₁ = s₂ := by
  cases h₁
  cases h₂
  rfl

/-- The byte total does not saturate in the call. -/
def CountsExactly (s : StoreOnDisk) (call : PutCall) : Prop :=
  s.store.used + call.bytes.length ≤ u64Max

namespace ArtifactStore

/-! ## One put -/

section
variable {hash : Bytes → UInt64} {store store' : ArtifactStore} {dir dir' : ArtifactDir}
  {kind : String} {bytes : Bytes} {now : Int} {item : ArtifactMeta} {id : String}

/-- What a put that is not cut off leaves: the old store, the old store with an entry of the
same size, or the new content at the end of what is left of the old order. -/
inductive WrittenEffect (hash : Bytes → UInt64) (store : ArtifactStore) (dir : ArtifactDir)
    (bytes : Bytes) : Except String ArtifactMeta → ArtifactStore → ArtifactDir → Prop
  | refused (e : String) : WrittenEffect hash store dir bytes (.error e) store dir
  | held (existing item : ArtifactMeta) :
      store.index.get (contentId hash bytes) = some existing →
      existing.bytes = bytes.length → readRegularFile dir existing.path = some bytes →
      item.id = existing.id → item.path = existing.path → item.bytes = existing.bytes →
      WrittenEffect hash store dir bytes (.ok item)
        { store with index := store.index.insert (contentId hash bytes) item } dir
  | stored (item : ArtifactMeta) (now : Int) (store' : ArtifactStore) (dir' : ArtifactDir) :
      store.index.get (contentId hash bytes) = none →
      item.id = contentId hash bytes → item.path = item.id → item.bytes = bytes.length →
      (store.added item).Retains (dir.insert (contentId hash bytes) (.file bytes now)) →
      (store.added item).held = store.held + bytes.length →
      Evicted (store.added item) (dir.insert (contentId hash bytes) (.file bytes now)) store'
        dir' →
      contentId hash bytes ∈ store'.lru →
      store.projectedUsedBytesAfterPut hash bytes = .ok store'.used →
      WrittenEffect hash store dir bytes (.ok item) store' dir'

theorem putWritten_spec (hash : Bytes → UInt64) (h : store.Retains dir) (kind : String)
    (bytes : Bytes) (now : Int) :
    WrittenEffect hash store dir bytes (store.putWritten hash dir kind bytes now).1
      (store.putWritten hash dir kind bytes now).2.1
      (store.putWritten hash dir kind bytes now).2.2 := by
  have hput := put_spec hash h kind bytes .written now
  rw [putWritten]
  generalize store.put hash dir kind bytes .written now = answer at hput
  cases hput with
  | refused e => exact .refused e
  | held existing item hindex hsize hread hid hpath hbytes =>
    exact .held existing item hindex hsize hread hid hpath hbytes
  | stored item store' dir' hindex hfree hwritten hitem hretains hheld hevicted hin hprojected =>
    subst hitem
    exact .stored _ now store' dir' hindex rfl rfl rfl hretains hheld hevicted hin hprojected
  | failed written removed error hfree hcut => cases hcut
  | stopped written hfree hcut => cases hcut

/-- An entry put in the place of one of the same size changes no count. -/
theorem Retains.replace {existing : ArtifactMeta} (h : store.Retains dir)
    (hindex : store.index.get id = some existing) (hid : item.id = existing.id)
    (hpath : item.path = existing.path) (hbytes : item.bytes = existing.bytes) :
    Retains { store with index := store.index.insert id item } dir ∧
      held { store with index := store.index.insert id item } = store.held := by
  have hsize : sizeOf { store with index := store.index.insert id item } = store.sizeOf := by
    funext id'
    rw [sizeOf, sizeOf, get_insert]
    by_cases hid' : id' = id
    · rw [if_pos hid', hid', hindex]
      exact hbytes
    · rw [if_neg hid']
  have hheld : held { store with index := store.index.insert id item } = store.held := by
    rw [held, held, hsize]
  refine ⟨⟨h.nodup, ?_, ?_, hheld ▸ h.total, h.bound⟩, hheld⟩
  · intro id'
    rw [h.mem, get_insert]
    by_cases hid' : id' = id
    · rw [if_pos hid', hid', hindex]
      exact ⟨fun _ => rfl, fun _ => rfl⟩
    · rw [if_neg hid']
  · intro id' item' hget
    rw [get_insert] at hget
    split_ifs at hget with hid'
    · cases hget
      obtain ⟨hname, hpath', hcontent, contents, hread, hlength⟩ := h.entry id existing hindex
      subst hid'
      exact ⟨hid.trans hname, hpath.trans hpath', hcontent, contents, hread, hbytes.trans hlength⟩
    · exact h.entry id' item' hget

variable {answer : Except String ArtifactMeta}

/-- What the accounts say of one put. -/
theorem WrittenEffect.retains (h : store.Retains dir) (hwithin : store.used ≤ store.maxBytes)
    (he : WrittenEffect hash store dir bytes answer store' dir') :
    store'.Retains dir' ∧ store'.used ≤ store'.maxBytes ∧
      (store.used = store.held → store.used + bytes.length ≤ u64Max → store'.used = store'.held)
    := by
  cases he with
  | refused e => exact ⟨h, hwithin, fun hused _ => hused⟩
  | held existing item hindex _ _ hid hpath hbytes =>
    obtain ⟨hretains, hheld⟩ := h.replace hindex hid hpath hbytes
    exact ⟨hretains, hwithin, fun hused _ => hused.trans hheld.symm⟩
  | stored item now store' dir' _ _ _ hbytes hretains hheld hevicted =>
    refine ⟨hevicted.retains hretains, hevicted.within hretains, fun hused hroom => ?_⟩
    apply hevicted.exact
    rw [hheld, added, hbytes, ← hused]
    exact min_eq_left hroom

theorem WrittenEffect.maxBytes (he : WrittenEffect hash store dir bytes answer store' dir') :
    store'.maxBytes = store.maxBytes := by
  cases he with
  | refused e => rfl
  | held existing item => rfl
  | stored item now store' dir' _ _ _ _ _ _ hevicted => exact hevicted.maxBytes

/-- New content goes to the end of the eviction order, and nothing else moves. -/
theorem WrittenEffect.order (he : WrittenEffect hash store dir bytes answer store' dir') :
    store'.lru <:+ store.lru ++ (if (store.index.get (contentId hash bytes)).isNone then
      answer.toOption.map (·.id) else none).toList := by
  cases he with
  | refused e => exact ⟨[], by rw [Except.toOption, Option.map_none, ite_self]; simp⟩
  | held existing item hindex =>
    rw [hindex]
    exact ⟨[], by simp⟩
  | stored item now store' dir' hindex _ _ _ _ _ hevicted =>
    rw [hindex]
    exact hevicted.suffix

/-- The artifact just put is indexed and reads back, and the bytes used are as projected. -/
theorem WrittenEffect.kept (h : store.Retains dir)
    (he : WrittenEffect hash store dir bytes (.ok item) store' dir') :
    item.id = contentId hash bytes ∧ store'.index.get item.id = some item ∧
      store'.read dir' item.id = some bytes ∧
      store.projectedUsedBytesAfterPut hash bytes = .ok store'.used := by
  cases he with
  | held existing item hindex hsize hread hid hpath hbytes =>
    obtain ⟨hname, -⟩ := h.entry _ existing hindex
    have hitem : item.id = contentId hash bytes := hid.trans hname
    have hget : (store.index.insert (contentId hash bytes) item).get item.id = some item := by
      rw [hitem, get_insert_self]
    refine ⟨hitem, hget, ?_, ?_⟩
    · rw [read, hget]
      show readRegularFile dir item.path = some bytes
      rw [hpath, hread]
    · rw [projectedUsedBytesAfterPut, hindex]
      rfl
  | stored item now store' dir' _ hid hpath _ _ _ hevicted hin hprojected =>
    have hget : store'.index.get item.id = some item := by
      rw [hevicted.index, hid, if_pos hin, added, hid, get_insert_self]
    refine ⟨hid, hget, ?_, hprojected⟩
    rw [read, hget]
    show readRegularFile dir' item.path = some bytes
    rw [hpath, hid, readRegularFile_congr (hevicted.dir _ |>.trans (if_neg fun hgone =>
      hgone.2 hin)), readRegularFile_eq_some]
    exact ⟨now, get_insert_self dir⟩

end
end ArtifactStore
/-! ## Over a run -/

/-- What a store opened on a directory keeps, whatever is put into it. -/
structure KeptArtifacts (opened : ArtifactDir) (maxBytes : Nat) (tr : List PutCall)
    (s : StoreOnDisk) : Prop where
  retains : s.store.Retains s.dir
  limit : s.store.maxBytes = maxBytes
  within : s.store.used ≤ s.store.maxBytes
  order : s.store.lru <:+ restoredOrder opened ++ tr.filterMap PutCall.stores

section
variable {hash : Bytes → UInt64} {opened : ArtifactDir} {maxBytes : Nat} {tr : List PutCall}
  {s s' : StoreOnDisk} {call : PutCall}

theorem KeptArtifacts.of_open {store : ArtifactStore} {dir' : ArtifactDir}
    (h : ArtifactStore.open opened maxBytes = (.ok store, dir')) :
    KeptArtifacts opened maxBytes [] ⟨store, dir'⟩ ∧
      (restoredBytes opened ≤ u64Max → store.used = store.held) := by
  obtain ⟨e, herror, -⟩ | ⟨found, store', dir'', hopen, hretains, hevicted, hmax, horder, -, hexact⟩
    := open_spec opened maxBytes
  · rw [h] at herror
    cases herror
  · rw [h] at hopen
    obtain ⟨hstore, rfl⟩ := Prod.mk.inj hopen
    cases hstore
    refine ⟨⟨hevicted.retains hretains, hevicted.maxBytes.trans hmax, hevicted.within hretains, ?_⟩,
      fun hsum => hevicted.exact (hexact hsum)⟩
    rw [filterMap_nil, append_nil, ← horder]
    exact hevicted.suffix

/-- Each put keeps it, and counts exactly where nothing saturates. -/
theorem KeptArtifacts.step (h : KeptArtifacts opened maxBytes tr s) (hs : PutStep hash s call s') :
    KeptArtifacts opened maxBytes (tr ++ [call]) s' ∧
      (s.store.used = s.store.held → CountsExactly s call → s'.store.used = s'.store.held) := by
  cases hs with
  | put kind bytes now =>
    have hspec := putWritten_spec hash h.retains kind bytes now
    obtain ⟨hretains, hwithin, hexact⟩ := hspec.retains h.retains h.within
    refine ⟨⟨hretains, hspec.maxBytes.trans h.limit, hwithin, ?_⟩, hexact⟩
    obtain ⟨dropped, hdropped⟩ := h.order
    refine hspec.order.trans ⟨dropped, ?_⟩
    rw [← append_assoc, hdropped, filterMap_append, append_assoc]
    rfl

/-- The eviction order is the index, and the bytes held are those it counts. -/
theorem ArtifactStore.Retains.index {store : ArtifactStore} {dir : ArtifactDir}
    (h : store.Retains dir) :
    store.lru.Perm (store.index.entries.map Prod.fst) ∧ store.held = store.indexedBytes := by
  have hperm : store.lru.Perm (store.index.entries.map Prod.fst) := by
    apply (perm_ext_iff_of_nodup h.nodup store.index.nodup).mpr
    intro id
    rw [h.mem, get_isSome_iff]
  refine ⟨hperm, ?_⟩
  rw [ArtifactStore.held, (hperm.map _).sum_eq, indexedBytes, map_map]
  apply congrArg List.sum
  apply map_congr_left
  rintro ⟨id, item⟩ hmem
  rw [Function.comp_apply, ArtifactStore.sizeOf, store.index.mem_entries.mp hmem]
  rfl

end

/-- **The accounts of an artifact store.**  After any puts into a store opened on any
directory, with no failure of the file system: the eviction order is a permutation of the
index, in the order in which the artifacts were stored (those found on opening, then the
new ones; a put of what is held moves nothing); the limit holds; as long as the byte total
does not saturate the bytes used are those indexed; and a put that succeeds retains its
artifact and leaves the bytes that were projected of it. -/
theorem artifact_accounting {hash : Bytes → UInt64} {opened dir : ArtifactDir} {maxBytes : Nat}
    {store : ArtifactStore} {tr : List PutCall} {s : StoreOnDisk}
    (hopen : ArtifactStore.open opened maxBytes = (.ok store, dir))
    (hrun : Run (PutStep hash) ⟨store, dir⟩ tr s) :
    s.store.lru.Perm (s.store.index.entries.map Prod.fst) ∧
    s.store.lru <:+ restoredOrder opened ++ tr.filterMap PutCall.stores ∧
    s.store.used ≤ maxBytes ∧
    (restoredBytes opened ≤ u64Max →
      Along (PutStep hash) CountsExactly ⟨store, dir⟩ tr →
      s.store.used = s.store.indexedBytes) ∧
    ∀ kind bytes now item, (s.putCall hash kind bytes now).answer = .ok item →
      (s.afterPut hash kind bytes now).store.index.get item.id = some item ∧
      (s.afterPut hash kind bytes now).store.read (s.afterPut hash kind bytes now).dir item.id =
        some bytes ∧
      (s.afterPut hash kind bytes now).store.used ≤ maxBytes ∧
      s.store.projectedUsedBytesAfterPut hash bytes =
        .ok (s.afterPut hash kind bytes now).store.used := by
  obtain ⟨hstart, hexact⟩ := KeptArtifacts.of_open hopen
  have hkept : KeptArtifacts opened maxBytes tr s ∧
      (restoredBytes opened ≤ u64Max →
        Along (PutStep hash) CountsExactly ⟨store, dir⟩ tr → s.store.used = s.store.held) := by
    refine hrun.forward_induction (P := fun tr s => KeptArtifacts opened maxBytes tr s ∧
      (restoredBytes opened ≤ u64Max →
        Along (PutStep hash) CountsExactly ⟨store, dir⟩ tr → s.store.used = s.store.held))
      ⟨hstart, fun hsum _ => hexact hsum⟩ ?_
    intro tr s call s' hrun ih hs
    obtain ⟨hkept, hcounts⟩ := ih.1.step hs
    exact ⟨hkept, fun hsum halong =>
      hcounts (ih.2 hsum halong.left) (halong.last hrun)⟩
  obtain ⟨hkept, hcounts⟩ := hkept
  obtain ⟨hperm, hindexed⟩ := hkept.retains.index
  refine ⟨hperm, hkept.order, hkept.limit ▸ hkept.within,
    fun hsum halong => (hcounts hsum halong).trans hindexed, ?_⟩
  intro kind bytes now item hok
  have hspec := putWritten_spec hash hkept.retains kind bytes now
  obtain ⟨-, hwithin, -⟩ := hspec.retains hkept.retains hkept.within
  have hlimit := hspec.maxBytes.trans hkept.limit
  simp only [StoreOnDisk.putCall] at hok
  rw [hok] at hspec
  obtain ⟨-, hget, hread, hprojected⟩ := hspec.kept hkept.retains
  exact ⟨hget, hread, hlimit ▸ hwithin, hprojected⟩

/-- The hash of the contents below; of others it says what it says of no bytes. -/
def sampleHash : Bytes → UInt64
  | [1] => 0xc926504fa8313a74
  | [1, 2] => 0xaaeb81f2de0f7963
  | _ => 0xbd60acb658c79e45

/-- A store of two bytes: one artifact, and one that evicts it. -/
theorem artifact_accounting_run :
    ∃ store s tr, ArtifactStore.open .empty 2 = (.ok store, .empty) ∧
      Run (PutStep sampleHash) ⟨store, .empty⟩ tr s ∧
      s.store.lru = ["lv-aaeb81f2de0f7963"] ∧ s.store.used ≤ 2 ∧
      s.store.used = s.store.indexedBytes := by
  let store : ArtifactStore := { maxBytes := 2, index := .empty, lru := [], used := 0 }
  let first : StoreOnDisk := StoreOnDisk.afterPut sampleHash ⟨store, .empty⟩ "text" [1] 0
  have hopen : ArtifactStore.open .empty 2 = (.ok store, .empty) := rfl
  have hfirst := @PutStep.put sampleHash ⟨store, .empty⟩ "text" [1] 0
  have hsecond := @PutStep.put sampleHash first "text" [1, 2] 1
  have hrun := Run.cons hfirst (Run.cons hsecond (Run.nil _))
  have hcounts : Along (PutStep sampleHash) CountsExactly ⟨store, .empty⟩
      [StoreOnDisk.putCall sampleHash ⟨store, .empty⟩ "text" [1] 0,
        first.putCall sampleHash "text" [1, 2] 1] := by
    have hroom : CountsExactly first (first.putCall sampleHash "text" [1, 2] 1) := by
      rw [CountsExactly]
      decide +kernel
    exact Along.cons_unique (PutStep.unique sampleHash) (by rw [CountsExactly]; decide) hfirst
      (Along.cons_unique (PutStep.unique sampleHash) hroom hsecond Along.nil)
  have hacc := artifact_accounting hopen hrun
  exact ⟨store, _, _, hopen, hrun, by decide +kernel, hacc.2.2.1,
    hacc.2.2.2.1 (by decide +kernel) hcounts⟩

/-- A put of what is held does not make it the last to go. -/
theorem put_again_stays_oldest :
    ∃ store tr s, ArtifactStore.open .empty 8 = (.ok store, .empty) ∧
      Run (PutStep sampleHash) ⟨store, .empty⟩ tr s ∧
      ¬ s.store.lru.Pairwise fun a b => lastUse PutCall.uses tr a < lastUse PutCall.uses tr b := by
  let store : ArtifactStore := { maxBytes := 8, index := .empty, lru := [], used := 0 }
  let first : StoreOnDisk := StoreOnDisk.afterPut sampleHash ⟨store, .empty⟩ "text" [1] 0
  let second := first.afterPut sampleHash "text" [1, 2] 1
  have hrun := Run.cons (@PutStep.put sampleHash ⟨store, .empty⟩ "text" [1] 0)
    (Run.cons (@PutStep.put sampleHash first "text" [1, 2] 1)
      (Run.cons (@PutStep.put sampleHash second "text" [1] 2) (Run.nil _)))
  exact ⟨store, _, _, rfl, hrun, by decide +kernel⟩

/-- Three files of the largest size there is. -/
def hugeDir (contents : Bytes) : ArtifactDir :=
  ⟨[("lv-0000000000000001", .file contents 1), ("lv-0000000000000002", .file contents 2),
    ("lv-0000000000000003", .file contents 3)], by simp⟩

/-- A store of all the bytes a total can count reads back more. -/
theorem huge_dir_saturates {contents : Bytes} (h : contents.length = 9223372036854775807) :
    ∃ store dir, ArtifactStore.open (hugeDir contents) u64Max = (.ok store, dir) ∧
      store.used ≠ store.indexedBytes := by
  obtain ⟨e, -, herror⟩ | ⟨found, store, dir, hopen, hretains, hevicted, hmax, horder, -⟩ :=
    open_spec (hugeDir contents) u64Max
  · cases herror
  refine ⟨store, dir, hopen, fun hused => ?_⟩
  have hall : store.lru = found.lru := by
    rw [hevicted.lru, shrink_of_le (hmax ▸ hretains.bound)]
  have horder' : found.lru =
      ["lv-0000000000000001", "lv-0000000000000002", "lv-0000000000000003"] := horder
  have hfile : ∀ id ∈ found.lru, readRegularFile (hugeDir contents) id = some contents := by
    rw [horder']
    intro id hid
    simp only [mem_cons, not_mem_nil, or_false] at hid
    rcases hid with rfl | rfl | rfl <;> rfl
  have hsize : ∀ id ∈ found.lru, found.sizeOf id = contents.length := by
    intro id hid
    obtain ⟨item, hitem⟩ := Option.isSome_iff_exists.mp ((hretains.mem id).mp hid)
    obtain ⟨-, -, -, contents', hread, hbytes⟩ := hretains.entry id item hitem
    rw [hfile id hid, Option.some.injEq] at hread
    rw [ArtifactStore.sizeOf, hitem, hread]
    exact hbytes
  have hheld : found.held = 3 * contents.length := by
    rw [ArtifactStore.held, map_congr_left hsize, horder']
    simp only [map_cons, map_nil, sum_cons, sum_nil]
    omega
  have hsame : store.held = found.held := by
    rw [hevicted.held, shrink_of_le (hmax ▸ hretains.bound), ArtifactStore.held]
  have hbound := (hevicted.retains hretains).bound
  rw [hused, ← ((hevicted.retains hretains).index).2, hsame, hheld, h] at hbound
  exact absurd hbound (by decide)

/-- The accounts as they were expected: the order is not that of last use, and a total that
has saturated is not that of the bytes indexed. -/
theorem artifact_accounting_not_lru :
    (∃ store tr s, ArtifactStore.open .empty 8 = (.ok store, .empty) ∧
      Run (PutStep sampleHash) ⟨store, .empty⟩ tr s ∧
      ¬ s.store.lru.Pairwise fun a b => lastUse PutCall.uses tr a < lastUse PutCall.uses tr b) ∧
    ∃ opened store dir, ArtifactStore.open opened u64Max = (.ok store, dir) ∧
      store.used ≠ store.indexedBytes := by
  refine ⟨put_again_stays_oldest, hugeDir (List.replicate 9223372036854775807 0), ?_⟩
  exact huge_dir_saturates length_replicate

end Localview
