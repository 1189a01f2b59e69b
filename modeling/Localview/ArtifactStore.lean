import Localview.AssocMap
import Localview.JournalFile
import Localview.EvictionQueue
import Localview.StateRun
import Mathlib.Data.List.Sort
import Mathlib.Data.Prod.Lex
import Mathlib.Data.String.Basic

/-! # The artifact store

`ArtifactStore` of `crates/artifacts`: byte strings kept in files named by a 64-bit hash of
their content, an index and an eviction order in memory, and a total of the bytes held.
Opening a store reads the index back from the names and lengths of the files found.

The root stays the directory it was when the store was opened, so a path is the name of a
file in it.  The hash is a parameter.  A write may be cut off: the call fails or the
process stops after any part of the bytes has reached the file.
-/
namespace Localview
open StateRun RecencyQueue List AssocMap

/-! ## Content ids -/

def isAsciiHexDigit (c : Char) : Bool :=
  c.isDigit || ('a' ≤ c && c ≤ 'f') || ('A' ≤ c && c ≤ 'F')

/-- The sixteen digits of `{:016x}`. -/
def hexDigits16 (n : UInt64) : List Char :=
  (List.range' 0 16).map fun i => Nat.digitChar (n.toNat / 16 ^ (15 - i) % 16)

def contentId (hash : Bytes → UInt64) (bytes : Bytes) : String :=
  String.ofList ('l' :: 'v' :: '-' :: hexDigits16 (hash bytes))

def isContentId (value : String) : Bool :=
  match value.toList with
  | 'l' :: 'v' :: '-' :: digits => decide (digits.length = 16) && digits.all isAsciiHexDigit
  | _ => false

theorem isContentId_contentId (hash : Bytes → UInt64) (bytes : Bytes) :
    isContentId (contentId hash bytes) = true := by
  have hdigit : ∀ k, k < 16 → isAsciiHexDigit (Nat.digitChar k) = true := by decide
  rw [isContentId, contentId, String.toList_ofList]
  show (decide ((hexDigits16 (hash bytes)).length = 16) &&
    (hexDigits16 (hash bytes)).all isAsciiHexDigit) = true
  rw [Bool.and_eq_true, all_eq_true]
  refine ⟨by simp [hexDigits16], ?_⟩
  intro c hc
  obtain ⟨i, -, rfl⟩ := mem_map.mp hc
  exact hdigit _ (Nat.mod_lt _ (by omega))

/-! ## The directory and the store -/

/-- An entry of the store's directory: a regular file, or a directory or a link. -/
inductive DirEntry
  | file (contents : Bytes) (modified : Int)
  | nonRegular

abbrev ArtifactDir := AssocMap String DirEntry

def readRegularFile (dir : ArtifactDir) (path : String) : Option Bytes :=
  match dir.get path with
  | some (.file contents _) => some contents
  | _ => none

/-- What the index holds of an artifact. -/
structure ArtifactMeta where
  (id kind : String)
  bytes : Nat
  path : String
  deriving DecidableEq

/-- The index, the order of use, the bytes counted. -/
structure ArtifactStore where
  maxBytes : Nat
  index : AssocMap String ArtifactMeta
  lru : List String
  used : Nat

namespace ArtifactStore

/-- `a.saturating_add(b)` on `u64`. -/
def addBytes (a b : Nat) : Nat := min (a + b) u64Max

/-- An item indexed, at the end of the eviction order. -/
def added (store : ArtifactStore) (item : ArtifactMeta) : ArtifactStore :=
  { store with
    used := addBytes store.used item.bytes
    lru := store.lru ++ [item.id]
    index := store.index.insert item.id item }

/-- The loop of `gc` over the eviction order. -/
def gcLoop : List String → ArtifactStore → ArtifactDir →
    Except String Unit × ArtifactStore × ArtifactDir
  | [], store, dir => (.ok (), store, dir)
  | id :: rest, store, dir =>
      if store.used ≤ store.maxBytes then (.ok (), store, dir)
      else
        match store.index.get id with
        | none => gcLoop rest { store with lru := rest } dir
        | some item =>
            match dir.get item.path with
            | some .nonRegular =>
                (.error s!"artifact GC refuses non-regular retained entry {item.id}", store, dir)
            | _ =>
                gcLoop rest
                  { store with
                    lru := rest
                    index := store.index.erase id
                    used := store.used - item.bytes }
                  (dir.erase item.path)

def gc (store : ArtifactStore) (dir : ArtifactDir) :
    Except String Unit × ArtifactStore × ArtifactDir :=
  gcLoop store.lru store dir

/-- A file found by `restore_existing`: when it was modified, its name and its length. -/
structure RestoredFile where
  modified : Int
  id : String
  bytes : Nat

/-- The listing of `restore_existing`; other names are passed over. -/
def restoredFiles : List (String × DirEntry) → Except String (List RestoredFile)
  | [] => .ok []
  | (id, entry) :: rest =>
      if isContentId id then
        match entry with
        | .nonRegular => .error s!"artifact store contains non-regular retained entry {id}"
        | .file contents modified =>
            (restoredFiles rest).map fun files => ⟨modified, id, contents.length⟩ :: files
      else restoredFiles rest

/-- Oldest first, and by name where two are of one time. -/
def sortRestored (files : List RestoredFile) : List RestoredFile :=
  files.insertionSort fun a b => toLex (a.modified, a.id) ≤ toLex (b.modified, b.id)

/-- A file found goes into the index. -/
def restore (store : ArtifactStore) (file : RestoredFile) : ArtifactStore :=
  store.added { id := file.id, kind := "retained", bytes := file.bytes, path := file.id }

/-- `open`: `restore_existing`, then `gc`. -/
def «open» (dir : ArtifactDir) (maxBytes : Nat) : Except String ArtifactStore × ArtifactDir :=
  match restoredFiles dir.entries with
  | .error e => (.error e, dir)
  | .ok files =>
      let store : ArtifactStore := { maxBytes, index := .empty, lru := [], used := 0 }
      match gc ((sortRestored files).foldl restore store) dir with
      | (.error e, _, dir) => (.error e, dir)
      | (.ok (), store, dir) => (.ok store, dir)

/-! ### Putting -/

/-- The loop of the projection over the eviction order. -/
def projectLoop (store : ArtifactStore) : List String → Nat → Nat
  | [], projected => projected
  | id :: rest, projected =>
      if projected ≤ store.maxBytes then projected
      else
        match store.index.get id with
        | none => projectLoop store rest projected
        | some item => projectLoop store rest (projected - item.bytes)

def projectedUsedBytesAfterPut (hash : Bytes → UInt64) (store : ArtifactStore) (bytes : Bytes) :
    Except String Nat :=
  if (store.index.get (contentId hash bytes)).isSome then .ok store.used
  else if store.maxBytes < bytes.length then
    .error s!"artifact requires {bytes.length} retained bytes but store limit is {store.maxBytes}"
  else
    let projected := store.projectLoop store.lru (addBytes store.used bytes.length)
    if store.maxBytes < projected then
      .error s!"artifact store cannot project usage within {store.maxBytes} retained bytes"
    else .ok projected

/-- How the new file comes to be written. -/
inductive WriteOutcome
  /-- All of it is written and synced. -/
  | written
  /-- The file could not be created. -/
  | notCreated (error : String)
  /-- Writing or syncing fails with so many bytes in the file, which is then removed, if
  removing it works. -/
  | failed (written : Nat) (removed : Bool) (error : String)
  /-- The process stops with so many bytes in the file. -/
  | stopped (written : Nat)

section
variable (store : ArtifactStore) (dir : ArtifactDir)

/-- What `put` does with content that is indexed. -/
def putExisting (kind : String) (bytes : Bytes)
    (existing : ArtifactMeta) (id : String) : Except String ArtifactMeta × ArtifactStore :=
  if existing.bytes ≠ bytes.length then
    (.error s!"physical artifact id collision detected; retained size differs for {id}", store)
  else
    match readRegularFile dir existing.path with
    | none => (.error s!"validate retained artifact {existing.id}", store)
    | some retained =>
        if retained ≠ bytes then
          (.error s!"physical artifact id collision detected; retained bytes differ for {id}",
            store)
        else
          let kept := if existing.kind = "retained" then { existing with kind } else existing
          (.ok kept, { store with index := store.index.insert id kept })

/-- What `put` does once the new file is there: it is indexed, and the oldest go. -/
def putNew (kind : String) (bytes : Bytes)
    (id : String) : Except String ArtifactMeta × ArtifactStore × ArtifactDir :=
  let item : ArtifactMeta := { id, kind, bytes := bytes.length, path := id }
  match gc (store.added item) dir with
  | (.error e, store, dir) => (.error e, store, dir)
  | (.ok (), store, dir) => (.ok item, store, dir)

/-- `put`, at a time and with an outcome of the write; there is no answer where the process
stops.  Nothing else writes to the directory, so what was written reads back. -/
def put (hash : Bytes → UInt64) (store : ArtifactStore) (dir : ArtifactDir) (kind : String)
    (bytes : Bytes) (outcome : WriteOutcome) (now : Int) :
    Option (Except String ArtifactMeta × ArtifactStore) × ArtifactDir :=
  match store.projectedUsedBytesAfterPut hash bytes with
  | .error e => (some (.error e, store), dir)
  | .ok _ =>
      let id := contentId hash bytes
      match store.index.get id with
      | some existing => (some (store.putExisting dir kind bytes existing id), dir)
      | none =>
          match dir.get id with
          | some _ =>
              (some (.error ("artifact destination already exists outside the retained index; " ++
                "refusing overwrite"), store), dir)
          | none =>
              match outcome with
              | .notCreated error => (some (.error error, store), dir)
              | .failed written removed error =>
                  (some (.error error, store),
                    if removed then dir
                    else dir.insert id (.file (bytes.take written) now))
              | .stopped written => (none, dir.insert id (.file (bytes.take written) now))
              | .written =>
                  match store.putNew (dir.insert id (.file bytes now)) kind bytes id with
                  | (answer, store, dir) => (some (answer, store), dir)

/-- The bytes held under an indexed id. -/
def read (id : String) : Option Bytes :=
  (store.index.get id).bind fun item => readRegularFile dir item.path

/-! ## What the store keeps -/

def sizeOf (store : ArtifactStore) (id : String) : Nat := (store.index.get id).elim 0 (·.bytes)

/-- The bytes of all that is indexed, in eviction order. -/
def held (store : ArtifactStore) : Nat := (store.lru.map store.sizeOf).sum

/-- The eviction order lists the index once each, every entry names its own regular file and
its length, and no more bytes are counted than are held. -/
structure Retains : Prop where
  nodup : store.lru.Nodup
  mem : ∀ id, id ∈ store.lru ↔ (store.index.get id).isSome
  entry : ∀ id item, store.index.get id = some item →
    item.id = id ∧ item.path = id ∧ isContentId id = true ∧
      ∃ contents, readRegularFile dir id = some contents ∧ item.bytes = contents.length
  total : store.used ≤ store.held
  bound : store.used ≤ u64Max

end

section
variable {store : ArtifactStore} {dir : ArtifactDir} {id : String} {rest : List String}

theorem readRegularFile_congr {dir' : ArtifactDir} (h : dir'.get id = dir.get id) :
    readRegularFile dir' id = readRegularFile dir id := by
  rw [readRegularFile, readRegularFile, h]

theorem readRegularFile_eq_some {contents : Bytes} :
    readRegularFile dir id = some contents ↔ ∃ modified, dir.get id = some (.file contents modified)
    := by
  rw [readRegularFile]
  constructor
  · intro h
    split at h
    · rename_i found modified hget
      cases h
      exact ⟨modified, hget⟩
    · cases h
  · rintro ⟨modified, hget⟩
    rw [hget]

/-- An evicted entry takes its file with it and leaves the others. -/
theorem Retains.drop {item : ArtifactMeta} (h : store.Retains dir) (hlru : store.lru = id :: rest)
    (hitem : store.index.get id = some item) :
    Retains { store with
      lru := rest
      index := store.index.erase id
      used := store.used - item.bytes } (dir.erase id) := by
  have hnodup := h.nodup
  rw [hlru, nodup_cons] at hnodup
  have hother : ∀ id' ∈ rest, id' ≠ id := fun id' hid' heq => hnodup.1 (heq ▸ hid')
  refine ⟨hnodup.2, ?_, ?_, ?_, (Nat.sub_le _ _).trans h.bound⟩
  · intro id'
    have hmem := h.mem id'
    rw [hlru, mem_cons] at hmem
    rw [get_erase]
    by_cases hid : id' = id
    · rw [if_pos hid, hid]
      exact ⟨fun hin => absurd hin hnodup.1, fun hsome => by cases hsome⟩
    · rw [if_neg hid, ← hmem]
      exact ⟨.inr, fun hor => hor.resolve_left hid⟩
  · intro id' item' hget
    rw [get_erase] at hget
    split_ifs at hget with hid
    obtain ⟨hname, hpath, hcontent, contents, hread, hbytes⟩ := h.entry id' item' hget
    refine ⟨hname, hpath, hcontent, contents, ?_, hbytes⟩
    rw [readRegularFile_congr (get_erase_of_ne dir hid)]
    exact hread
  · have htotal := h.total
    have hrest : rest.map (sizeOf { store with
        lru := rest
        index := store.index.erase id
        used := store.used - item.bytes }) = rest.map store.sizeOf := by
      apply map_congr_left
      intro id' hid'
      rw [sizeOf, sizeOf, get_erase_of_ne store.index (hother id' hid')]
    rw [held, hlru, map_cons, sum_cons, sizeOf, hitem] at htotal
    rw [held, hrest]
    dsimp only [Option.elim] at htotal ⊢
    omega

/-- **What eviction does.**  Nothing refuses it; the order and the total shrink together,
and the index and the directory lose what left the order. -/
theorem gcLoop_spec (h : store.Retains dir) {l : List String} (hlru : store.lru = l) :
    ∃ index' dir', gcLoop l store dir =
        (.ok (), { store with
          lru := (shrink store.maxBytes store.sizeOf l store.used).1
          used := (shrink store.maxBytes store.sizeOf l store.used).2
          index := index' }, dir') ∧
      (∀ id, index'.get id =
        if id ∈ (shrink store.maxBytes store.sizeOf l store.used).1 then store.index.get id
        else none) ∧
      ∀ id, dir'.get id =
        if id ∈ l ∧ id ∉ (shrink store.maxBytes store.sizeOf l store.used).1 then none
        else dir.get id := by
  induction l generalizing store dir with
  | nil =>
    refine ⟨store.index, dir, ?_, ?_, ?_⟩
    · rw [gcLoop, shrink, ← hlru]
    · intro id
      have hnone := h.mem id
      rw [hlru, ← Option.ne_none_iff_isSome] at hnone
      rw [shrink, if_neg not_mem_nil]
      by_contra hne
      exact absurd (hnone.mpr hne) not_mem_nil
    · intro id
      rw [if_neg fun hmem => absurd hmem.1 not_mem_nil]
  | cons id rest ih =>
    rw [gcLoop, shrink]
    by_cases hused : store.used ≤ store.maxBytes
    · rw [if_pos hused, if_pos hused]
      refine ⟨store.index, dir, ?_, ?_, ?_⟩
      · rw [← hlru]
      · intro id'
        have hmem := h.mem id'
        rw [hlru] at hmem
        by_cases hin : id' ∈ id :: rest
        · rw [if_pos hin]
        · rw [if_neg hin]
          rw [hmem, Option.not_isSome_iff_eq_none] at hin
          exact hin
      · intro id'
        rw [if_neg fun hmem => hmem.2 hmem.1]
    · rw [if_neg hused, if_neg hused]
      obtain ⟨item, hitem⟩ := Option.isSome_iff_exists.mp
        ((h.mem id).mp (hlru ▸ mem_cons_self))
      obtain ⟨-, hpath, -, contents, hread, -⟩ := h.entry id item hitem
      obtain ⟨modified, hget⟩ := readRegularFile_eq_some.mp hread
      have hnodup := h.nodup
      rw [hlru, nodup_cons] at hnodup
      have hother : ∀ id' ∈ rest, id' ≠ id := fun id' hid' heq => hnodup.1 (heq ▸ hid')
      have hsize : store.sizeOf id = item.bytes := by rw [sizeOf, hitem]; rfl
      have hshrink : shrink store.maxBytes (sizeOf { store with
          lru := rest
          index := store.index.erase id
          used := store.used - item.bytes }) rest (store.used - item.bytes) =
          shrink store.maxBytes store.sizeOf rest (store.used - item.bytes) := by
        apply shrink_congr
        intro id' hid'
        rw [sizeOf, sizeOf, get_erase_of_ne store.index (hother id' hid')]
      obtain ⟨index', dir', hloop, hindex, hdir⟩ := ih (h.drop hlru hitem) rfl
      rw [hitem, hsize]
      simp only [hpath, hget]
      simp only [hshrink] at hloop hindex hdir
      have hgone : id ∉ (shrink store.maxBytes store.sizeOf rest (store.used - item.bytes)).1 :=
        fun hin => hnodup.1 (shrink_suffix.mem hin)
      refine ⟨index', dir', hloop, ?_, ?_⟩
      · intro id'
        rw [hindex]
        split_ifs with hin
        · exact get_erase_of_ne _ fun heq => hgone (heq ▸ hin)
        · rfl
      · intro id'
        rw [hdir, get_erase]
        by_cases hid : id' = id
        · rw [if_pos hid, ite_self, hid, if_pos ⟨mem_cons_self, hgone⟩]
        · rw [if_neg hid]
          refine if_congr (and_congr_left' ?_) rfl rfl
          rw [mem_cons]
          exact ⟨.inr, fun hor => hor.resolve_left hid⟩

/-- What an eviction leaves of a store and its directory. -/
structure Evicted (store : ArtifactStore) (dir : ArtifactDir) (store' : ArtifactStore)
    (dir' : ArtifactDir) : Prop where
  maxBytes : store'.maxBytes = store.maxBytes
  shrunk : (store'.lru, store'.used) = shrink store.maxBytes store.sizeOf store.lru store.used
  index : ∀ id, store'.index.get id = if id ∈ store'.lru then store.index.get id else none
  dir : ∀ id, dir'.get id = if id ∈ store.lru ∧ id ∉ store'.lru then none else dir.get id

theorem gc_spec (h : store.Retains dir) :
    ∃ store' dir', gc store dir = (.ok (), store', dir') ∧ Evicted store dir store' dir' := by
  obtain ⟨index', dir', hloop, hindex, hdir⟩ := gcLoop_spec h rfl
  exact ⟨_, dir', hloop, ⟨rfl, rfl, hindex, hdir⟩⟩

namespace Evicted
variable {store' : ArtifactStore} {dir' : ArtifactDir}

theorem lru (h : Evicted store dir store' dir') :
    store'.lru = (shrink store.maxBytes store.sizeOf store.lru store.used).1 :=
  congrArg Prod.fst h.shrunk

theorem used (h : Evicted store dir store' dir') :
    store'.used = (shrink store.maxBytes store.sizeOf store.lru store.used).2 :=
  congrArg Prod.snd h.shrunk

theorem suffix (h : Evicted store dir store' dir') : store'.lru <:+ store.lru := by
  rw [h.lru]
  exact shrink_suffix

/-- What stays is as large as it was. -/
theorem held (h : Evicted store dir store' dir') :
    store'.held = ((shrink store.maxBytes store.sizeOf store.lru store.used).1.map
      store.sizeOf).sum := by
  have hsizes : store'.lru.map store'.sizeOf = store'.lru.map store.sizeOf := by
    apply map_congr_left
    intro id hid
    rw [sizeOf, sizeOf, h.index, if_pos hid]
  rw [ArtifactStore.held, hsizes, h.lru]

theorem total (h : Evicted store dir store' dir') (hr : store.Retains dir) :
    store'.used ≤ store'.held := by
  rw [h.used, h.held]
  exact shrink_le_sum (c := 0) hr.total

/-- A total that was exact is exact. -/
theorem exact (h : Evicted store dir store' dir') (hused : store.used = store.held) :
    store'.used = store'.held := by
  rw [h.used, h.held]
  exact shrink_eq_sum hused

/-- Eviction ends within the limit: an empty store holds nothing. -/
theorem within (h : Evicted store dir store' dir') (hr : store.Retains dir) :
    store'.used ≤ store'.maxBytes := by
  have htotal := h.total hr
  rw [h.maxBytes, h.used]
  rcases shrink_within store.maxBytes store.sizeOf store.lru store.used with hle | hnil
  · exact hle
  · rw [h.held, hnil, h.used] at htotal
    exact htotal.trans (Nat.zero_le _)

theorem retains (h : Evicted store dir store' dir') (hr : store.Retains dir) :
    store'.Retains dir' := by
  refine ⟨hr.nodup.sublist h.suffix.sublist, ?_, ?_, h.total hr, ?_⟩
  · intro id
    rw [h.index]
    split_ifs with hin
    · exact ⟨fun _ => (hr.mem id).mp (h.suffix.mem hin), fun _ => hin⟩
    · exact ⟨fun hin' => absurd hin' hin, fun hsome => by cases hsome⟩
  · intro id item hget
    rw [h.index] at hget
    split_ifs at hget with hin
    obtain ⟨hname, hpath, hcontent, contents, hread, hbytes⟩ := hr.entry id item hget
    refine ⟨hname, hpath, hcontent, contents, ?_, hbytes⟩
    rw [readRegularFile_congr (h.dir id |>.trans (if_neg fun hgone => hgone.2 hin))]
    exact hread
  · rw [h.used]
    exact shrink_le.trans hr.bound

end Evicted

/-- A file of its own becomes an entry. -/
theorem Retains.add (h : store.Retains dir) (item : ArtifactMeta)
    (hnew : store.index.get item.id = none) (hpath : item.path = item.id)
    (hcontent : isContentId item.id = true) {contents : Bytes}
    (hread : readRegularFile dir item.id = some contents) (hbytes : item.bytes = contents.length) :
    (store.added item).Retains dir ∧ (store.added item).held = store.held + item.bytes := by
  have hout : item.id ∉ store.lru := by
    rw [h.mem, hnew]
    exact Bool.false_ne_true
  have hsizes : store.lru.map (store.added item).sizeOf = store.lru.map store.sizeOf := by
    apply map_congr_left
    intro id hid
    have hne : id ≠ item.id := fun heq => hout (heq ▸ hid)
    rw [sizeOf, sizeOf, added, get_insert_of_ne store.index hne]
  have hlast : (store.added item).sizeOf item.id = item.bytes := by
    rw [sizeOf, added, get_insert_self]
    rfl
  have hheld : (store.added item).held = store.held + item.bytes := by
    rw [held, added, map_append, sum_append, ← added, hsizes, map_cons,
      map_nil, sum_singleton, hlast, held]
  refine ⟨⟨?_, ?_, ?_, ?_, min_le_right _ _⟩, hheld⟩
  · rw [added]
    exact nodup_append.mpr ⟨h.nodup, nodup_singleton _, fun id hid id' hid' heq =>
      hout (mem_singleton.mp hid' ▸ heq ▸ hid)⟩
  · intro id
    rw [added, mem_append, mem_singleton, get_insert, h.mem]
    by_cases hid : id = item.id
    · rw [if_pos hid]
      exact ⟨fun _ => rfl, fun _ => .inr hid⟩
    · rw [if_neg hid]
      exact ⟨fun hor => hor.resolve_right hid, .inl⟩
  · intro id item' hget
    rw [added, get_insert] at hget
    split_ifs at hget with hid
    · cases hget
      exact ⟨hid.symm, hpath.trans hid.symm, hid ▸ hcontent, contents, hid ▸ hread, hbytes⟩
    · exact h.entry id item' hget
  · have htotal := h.total
    rw [hheld, added, addBytes]
    dsimp only
    omega

end

/-! ## What opening reads back -/

/-- The files found are the regular files with a content id, each once. -/
theorem restoredFiles_spec {entries : List (String × DirEntry)} {files : List RestoredFile}
    (h : restoredFiles entries = .ok files) :
    (files.map (·.id)).Sublist (entries.map Prod.fst) ∧
    (∀ file ∈ files, isContentId file.id = true ∧ ∃ contents,
      (file.id, DirEntry.file contents file.modified) ∈ entries ∧
        file.bytes = contents.length) ∧
    ∀ id entry, (id, entry) ∈ entries → isContentId id = true → id ∈ files.map (·.id) := by
  induction entries generalizing files with
  | nil =>
    cases h
    exact ⟨List.Sublist.refl _, fun file hfile => (by cases hfile), fun id entry hmem => by
      cases hmem⟩
  | cons e rest ih =>
    obtain ⟨id, entry⟩ := e
    simp only [restoredFiles] at h
    rcases ite_eq_iff.mp h with ⟨hcontent, h⟩ | ⟨hcontent, h⟩
    · cases entry with
      | nonRegular => cases h
      | file contents modified =>
        cases hrest : restoredFiles rest with
        | error e =>
          rw [hrest] at h
          cases h
        | ok found =>
          rw [hrest] at h
          cases h
          obtain ⟨hsub, hfiles, hall⟩ := ih hrest
          refine ⟨hsub.cons_cons _, ?_, ?_⟩
          · intro file hfile
            rcases mem_cons.mp hfile with rfl | hfile
            · exact ⟨hcontent, contents, mem_cons_self, rfl⟩
            · obtain ⟨hid, contents', hmem, hbytes⟩ := hfiles file hfile
              exact ⟨hid, contents', mem_cons_of_mem _ hmem, hbytes⟩
          · intro id' entry' hmem hid'
            rcases mem_cons.mp hmem with heq | hmem
            · obtain ⟨rfl, -⟩ := Prod.mk.inj heq
              exact mem_cons_self
            · exact mem_cons_of_mem _ (hall id' entry' hmem hid')
    · obtain ⟨hsub, hfiles, hall⟩ := ih h
      refine ⟨hsub.cons _, ?_, ?_⟩
      · intro file hfile
        obtain ⟨hid, contents', hmem, hbytes⟩ := hfiles file hfile
        exact ⟨hid, contents', mem_cons_of_mem _ hmem, hbytes⟩
      · intro id' entry' hmem hid'
        rcases mem_cons.mp hmem with heq | hmem
        · obtain ⟨rfl, -⟩ := Prod.mk.inj heq
          exact absurd hid' hcontent
        · exact hall id' entry' hmem hid'

/-- The listing fails only over a content id that is no regular file. -/
theorem restoredFiles_error {entries : List (String × DirEntry)} {e : String}
    (h : restoredFiles entries = .error e) :
    ∃ id, (id, DirEntry.nonRegular) ∈ entries ∧ isContentId id = true := by
  induction entries with
  | nil => cases h
  | cons head rest ih =>
    obtain ⟨id, entry⟩ := head
    simp only [restoredFiles] at h
    have hlater : restoredFiles rest = .error e →
        ∃ id', (id', DirEntry.nonRegular) ∈ (id, entry) :: rest ∧ isContentId id' = true := by
      intro hrest
      obtain ⟨id', hmem, hid'⟩ := ih hrest
      exact ⟨id', mem_cons_of_mem _ hmem, hid'⟩
    rcases ite_eq_iff.mp h with ⟨hid, h⟩ | ⟨hid, h⟩
    · cases entry with
      | nonRegular => exact ⟨id, mem_cons_self, hid⟩
      | file contents modified =>
        cases hrest : restoredFiles rest with
        | error e' =>
          rw [hrest] at h
          cases h
          exact hlater hrest
        | ok files =>
          rw [hrest] at h
          cases h
    · exact hlater h

section
variable {store : ArtifactStore} {dir : ArtifactDir} {files : List RestoredFile}

open ArtifactStore

/-- Files read back one after the other. -/
theorem Retains.restore (h : store.Retains dir) (hnodup : (files.map (·.id)).Nodup)
    (hnew : ∀ file ∈ files, store.index.get file.id = none)
    (hfiles : ∀ file ∈ files, isContentId file.id = true ∧ ∃ contents,
      readRegularFile dir file.id = some contents ∧ file.bytes = contents.length) :
    (files.foldl restore store).Retains dir ∧
      (files.foldl restore store).lru = store.lru ++ files.map (·.id) ∧
      (files.foldl restore store).maxBytes = store.maxBytes ∧
      (store.used = store.held → store.held + (files.map (·.bytes)).sum ≤ u64Max →
        (files.foldl restore store).used =
          (files.foldl restore store).held) := by
  induction files generalizing store with
  | nil =>
    exact ⟨h, (append_nil _).symm, rfl, fun hused _ => hused⟩
  | cons file rest ih =>
    rw [map_cons, nodup_cons] at hnodup
    obtain ⟨hcontent, contents, hread, hbytes⟩ := hfiles file mem_cons_self
    obtain ⟨hadd, hheld⟩ : (store.restore file).Retains dir ∧
        (store.restore file).held = store.held + file.bytes :=
      h.add _ (hnew file mem_cons_self) rfl hcontent hread hbytes
    have hnew' : ∀ file' ∈ rest, (store.restore file).index.get file'.id = none := by
      intro file' hfile'
      have hne : file'.id ≠ file.id := fun heq =>
        hnodup.1 (heq ▸ mem_map.mpr ⟨file', hfile', rfl⟩)
      rw [restore, added, get_insert_of_ne store.index hne]
      exact hnew file' (mem_cons_of_mem _ hfile')
    obtain ⟨hretains, hlru, hmax, hexact⟩ := ih hadd hnodup.2 hnew' fun file' hfile' =>
      hfiles file' (mem_cons_of_mem _ hfile')
    refine ⟨hretains, ?_, hmax, ?_⟩
    · rw [foldl_cons, hlru, map_cons]
      exact append_assoc _ _ _
    · intro hused hsum
      rw [map_cons, sum_cons] at hsum
      have hused' : (store.restore file).used = (store.restore file).held := by
        have hroom : store.used + file.bytes ≤ u64Max := by omega
        rw [hheld, ← hused]
        exact min_eq_left hroom
      exact hexact hused' (by omega)

end

/-- The files of a directory that a store reads back, oldest first. -/
def restoredOrder (dir : ArtifactDir) : List String :=
  ((restoredFiles dir.entries).toOption.elim [] sortRestored).map (·.id)

/-- The bytes of these files. -/
def restoredBytes (dir : ArtifactDir) : Nat :=
  (((restoredFiles dir.entries).toOption.elim [] sortRestored).map (·.bytes)).sum

/-- **What `open` does.**  It refuses a directory with a content id that is no regular file;
otherwise it reads back every content id there is, and the oldest go. -/
theorem open_spec (dir : ArtifactDir) (maxBytes : Nat) :
    (∃ e, «open» dir maxBytes = (.error e, dir) ∧
      restoredFiles dir.entries = .error e) ∨
    ∃ found store dir', «open» dir maxBytes = (.ok store, dir') ∧ found.Retains dir ∧
      Evicted found dir store dir' ∧ found.maxBytes = maxBytes ∧
      found.lru = restoredOrder dir ∧
      (∀ id entry, dir.get id = some entry → isContentId id = true → id ∈ found.lru) ∧
      (restoredBytes dir ≤ u64Max → found.used = found.held) := by
  rw [«open»]
  cases hfiles : restoredFiles dir.entries with
  | error e => exact .inl ⟨e, rfl, rfl⟩
  | ok files =>
    obtain ⟨hsub, hfound, hall⟩ := restoredFiles_spec hfiles
    have hperm : (sortRestored files).Perm files := perm_insertionSort _ _
    have hempty : Retains { maxBytes, index := .empty, lru := [], used := 0 } dir := by
      refine ⟨nodup_nil, fun id => ?_, fun id item hget => (by cases hget), le_rfl,
        Nat.zero_le _⟩
      rw [get_empty]
      exact ⟨fun hmem => (by cases hmem), fun hsome => (by cases hsome)⟩
    have hnodup : ((sortRestored files).map (·.id)).Nodup :=
      ((hperm.map _).nodup_iff).mpr (dir.nodup.sublist hsub)
    have hread : ∀ file ∈ sortRestored files, isContentId file.id = true ∧ ∃ contents,
        readRegularFile dir file.id = some contents ∧ file.bytes = contents.length := by
      intro file hfile
      obtain ⟨hid, contents, hmem, hbytes⟩ := hfound file (hperm.mem_iff.mp hfile)
      exact ⟨hid, contents, readRegularFile_eq_some.mpr ⟨_, (dir.mem_entries).mp hmem⟩, hbytes⟩
    obtain ⟨hretains, hlru, hmax, hexact⟩ := hempty.restore hnodup
      (fun file _ => get_empty) hread
    obtain ⟨store, dir', hgc, hevicted⟩ := gc_spec hretains
    have horder : restoredOrder dir = (sortRestored files).map (·.id) := by
      rw [restoredOrder, hfiles]
      rfl
    have hbytes : restoredBytes dir = ((sortRestored files).map (·.bytes)).sum := by
      rw [restoredBytes, hfiles]
      rfl
    refine .inr ⟨_, store, dir', ?_, hretains, hevicted, hmax, ?_, ?_, ?_⟩
    · simp only [hgc]
    · rw [hlru, horder, nil_append]
    · intro id entry hget hid
      have hmem := hall id entry (dir.mem_entries.mpr hget) hid
      rw [hlru, nil_append, (hperm.map _).mem_iff]
      exact hmem
    · intro hsum
      refine hexact rfl ?_
      rw [← hbytes]
      exact (Nat.zero_add _).trans_le hsum

/-! ## What putting does -/

section
variable {hash : Bytes → UInt64} {store : ArtifactStore} {dir : ArtifactDir} {bytes : Bytes}

/-- The projection's loop is the total of an eviction. -/
theorem projectLoop_eq {l : List String} {used : Nat} :
    store.projectLoop l used = (shrink store.maxBytes store.sizeOf l used).2 := by
  induction l generalizing used with
  | nil => rfl
  | cons id rest ih =>
    rw [projectLoop, shrink, sizeOf]
    split_ifs
    · rfl
    · cases store.index.get id with
      | none => exact ih
      | some item => exact ih

/-- What the projection accepts: content that is held, or that fits once the oldest have
gone. -/
theorem projected_eq_ok {n : Nat} (h : store.projectedUsedBytesAfterPut hash bytes = .ok n) :
    ((store.index.get (contentId hash bytes)).isSome ∧ n = store.used) ∨
    store.index.get (contentId hash bytes) = none ∧ bytes.length ≤ store.maxBytes ∧
      n ≤ store.maxBytes ∧ n = (shrink store.maxBytes store.sizeOf store.lru
        (addBytes store.used bytes.length)).2 := by
  simp only [projectedUsedBytesAfterPut, projectLoop_eq] at h
  split_ifs at h with hsome hlarge hproject
  · exact .inl ⟨hsome, (Except.ok.inj h).symm⟩
  · rw [Option.not_isSome_iff_eq_none] at hsome
    exact .inr ⟨hsome, not_lt.mp hlarge, (Except.ok.inj h) ▸ not_lt.mp hproject,
      (Except.ok.inj h).symm⟩

/-- Within the limit the projection accepts. -/
theorem projected_of_fits (hash : Bytes → UInt64) (h : store.Retains dir)
    (hfits : bytes.length ≤ store.maxBytes) :
    ∃ n, store.projectedUsedBytesAfterPut hash bytes = .ok n := by
  have htotal : addBytes store.used bytes.length ≤ store.held + bytes.length := by
    have := h.total
    rw [addBytes]
    omega
  have hle : (shrink store.maxBytes store.sizeOf store.lru (addBytes store.used bytes.length)).2 ≤
      ((shrink store.maxBytes store.sizeOf store.lru
        (addBytes store.used bytes.length)).1.map store.sizeOf).sum + bytes.length :=
    shrink_le_sum htotal
  simp only [projectedUsedBytesAfterPut, projectLoop_eq]
  split_ifs with hsome hlarge hproject
  · exact ⟨_, rfl⟩
  · exact absurd hfits hlarge.not_ge
  · rcases shrink_within store.maxBytes store.sizeOf store.lru
      (addBytes store.used bytes.length) with hwithin | hnil
    · exact absurd hwithin hproject.not_ge
    · rw [hnil, map_nil, sum_nil, Nat.zero_add] at hle
      exact absurd (hle.trans hfits) hproject.not_ge
  · exact ⟨_, rfl⟩

/-- What a call of `put` may do. -/
inductive PutEffect (hash : Bytes → UInt64) (store : ArtifactStore) (dir : ArtifactDir)
    (kind : String) (bytes : Bytes) (outcome : WriteOutcome) (now : Int) :
    Option (Except String ArtifactMeta × ArtifactStore) × ArtifactDir → Prop
  | refused (e : String) :
      PutEffect hash store dir kind bytes outcome now (some (.error e, store), dir)
  | held (existing item : ArtifactMeta) :
      store.index.get (contentId hash bytes) = some existing →
      existing.bytes = bytes.length → readRegularFile dir existing.path = some bytes →
      item.id = existing.id → item.path = existing.path → item.bytes = existing.bytes →
      PutEffect hash store dir kind bytes outcome now
        (some (.ok item, { store with index := store.index.insert (contentId hash bytes) item }),
          dir)
  | stored (item : ArtifactMeta) (store' : ArtifactStore) (dir' : ArtifactDir) :
      store.index.get (contentId hash bytes) = none → dir.get (contentId hash bytes) = none →
      outcome = .written →
      item = ⟨contentId hash bytes, kind, bytes.length, contentId hash bytes⟩ →
      (store.added item).Retains (dir.insert (contentId hash bytes) (.file bytes now)) →
      (store.added item).held = store.held + bytes.length →
      Evicted (store.added item) (dir.insert (contentId hash bytes) (.file bytes now)) store'
        dir' →
      contentId hash bytes ∈ store'.lru →
      store.projectedUsedBytesAfterPut hash bytes = .ok store'.used →
      PutEffect hash store dir kind bytes outcome now (some (.ok item, store'), dir')
  | failed (written : Nat) (removed : Bool) (error : String) :
      dir.get (contentId hash bytes) = none → outcome = .failed written removed error →
      PutEffect hash store dir kind bytes outcome now
        (some (.error error, store),
          if removed then dir
          else dir.insert (contentId hash bytes) (.file (bytes.take written) now))
  | stopped (written : Nat) :
      dir.get (contentId hash bytes) = none → outcome = .stopped written →
      PutEffect hash store dir kind bytes outcome now
        (none, dir.insert (contentId hash bytes) (.file (bytes.take written) now))

/-- A file under a free name disturbs nothing that is indexed. -/
theorem Retains.insertFile {id : String} (h : store.Retains dir) (entry : DirEntry)
    (hfree : dir.get id = none) : store.Retains (dir.insert id entry) := by
  refine ⟨h.nodup, h.mem, ?_, h.total, h.bound⟩
  intro id' item hget
  obtain ⟨hname, hpath, hcontent, contents, hread, hbytes⟩ := h.entry id' item hget
  refine ⟨hname, hpath, hcontent, contents, ?_, hbytes⟩
  obtain ⟨modified, hfile⟩ := readRegularFile_eq_some.mp hread
  have hne : id' ≠ id := by
    rintro rfl
    rw [hfree] at hfile
    cases hfile
  rw [readRegularFile_congr (get_insert_of_ne dir hne)]
  exact hread

/-- New content stays, and eviction ends where the projection said. -/
theorem putNew_spec (h : store.Retains dir) (kind : String) (now : Int) {id : String} {n : Nat}
    (hcontent : isContentId id = true) (hnew : store.index.get id = none)
    (hfree : dir.get id = none) (hwithin : n ≤ store.maxBytes)
    (hn : n = (shrink store.maxBytes store.sizeOf store.lru
      (addBytes store.used bytes.length)).2) :
    ∃ store' dir', store.putNew (dir.insert id (.file bytes now)) kind bytes id =
        (.ok ⟨id, kind, bytes.length, id⟩, store', dir') ∧
      (store.added ⟨id, kind, bytes.length, id⟩).Retains (dir.insert id (.file bytes now)) ∧
      (store.added ⟨id, kind, bytes.length, id⟩).held = store.held + bytes.length ∧
      Evicted (store.added ⟨id, kind, bytes.length, id⟩) (dir.insert id (.file bytes now)) store'
        dir' ∧
      id ∈ store'.lru ∧ store'.used = n := by
  have hread : readRegularFile (dir.insert id (.file bytes now)) id = some bytes :=
    readRegularFile_eq_some.mpr ⟨now, get_insert_self dir⟩
  obtain ⟨hretains, hheld⟩ := (h.insertFile (.file bytes now) hfree).add
    ⟨id, kind, bytes.length, id⟩ hnew rfl hcontent hread rfl
  obtain ⟨store', dir', hgc, hevicted⟩ := gc_spec hretains
  have hsizes : ∀ id' ∈ store.lru,
      (store.added ⟨id, kind, bytes.length, id⟩).sizeOf id' = store.sizeOf id' := by
    intro id' hid'
    have hne : id' ≠ id := by
      rintro rfl
      rw [h.mem, hnew] at hid'
      cases hid'
    rw [sizeOf, sizeOf, added, get_insert_of_ne store.index hne]
  have hshrink := shrink_congr store.maxBytes (addBytes store.used bytes.length) hsizes
  have hconcat := shrink_concat (a := id) (by rw [hshrink, ← hn]; exact hwithin)
  rw [hshrink, ← hn] at hconcat
  refine ⟨store', dir', ?_, hretains, hheld, hevicted, ?_, ?_⟩
  · simp only [putNew, hgc]
  · rw [hevicted.lru]
    exact hconcat ▸ mem_append_right _ (mem_singleton_self id)
  · rw [hevicted.used]
    exact congrArg Prod.snd hconcat

/-- **What `put` does.** -/
theorem put_spec (hash : Bytes → UInt64) (h : store.Retains dir) (kind : String) (bytes : Bytes)
    (outcome : WriteOutcome) (now : Int) :
    PutEffect hash store dir kind bytes outcome now
      (store.put hash dir kind bytes outcome now) := by
  rw [put]
  cases hprojected : store.projectedUsedBytesAfterPut hash bytes with
  | error e => exact .refused e
  | ok n =>
    dsimp only
    cases hindex : store.index.get (contentId hash bytes) with
    | some existing =>
      dsimp only
      rw [putExisting]
      by_cases hsize : existing.bytes ≠ bytes.length
      · rw [if_pos hsize]
        exact .refused _
      rw [if_neg hsize]
      cases hread : readRegularFile dir existing.path with
      | none => exact .refused _
      | some retained =>
        dsimp only
        by_cases hsame : retained ≠ bytes
        · rw [if_pos hsame]
          exact .refused _
        rw [if_neg hsame]
        obtain rfl := not_not.mp hsame
        have hkept : ∀ item : ArtifactMeta,
            item = (if existing.kind = "retained" then { existing with kind } else existing) →
            item.id = existing.id ∧ item.path = existing.path ∧ item.bytes = existing.bytes := by
          rintro item rfl
          split_ifs <;> exact ⟨rfl, rfl, rfl⟩
        obtain ⟨hid, hpath, hbytes⟩ := hkept _ rfl
        exact .held existing _ hindex (not_not.mp hsize) hread hid hpath hbytes
    | none =>
      dsimp only
      obtain ⟨hsome, -⟩ | ⟨-, -, hwithin, hn⟩ := projected_eq_ok hprojected
      · rw [hindex] at hsome
        cases hsome
      cases hfree : dir.get (contentId hash bytes) with
      | some entry => exact .refused _
      | none =>
        dsimp only
        cases outcome with
        | notCreated error => exact .refused error
        | failed written removed error => exact .failed written removed error hfree rfl
        | stopped written => exact .stopped written hfree rfl
        | written =>
          obtain ⟨store', dir', hput, hretains, hheld, hevicted, hin, hused⟩ :=
            putNew_spec h kind now (isContentId_contentId hash bytes) hindex
              hfree hwithin hn
          rw [hput]
          exact .stored _ store' dir' hindex hfree rfl rfl hretains hheld hevicted hin
            (hused ▸ hprojected)

end
end ArtifactStore
end Localview
