import Mathlib.Data.String.Basic
import Localview.AssocMap
import Localview.Worklist

/-! # The content-addressed store

Objects stand under their hashes and name those they depend on by hash.  Nothing asks that
a store be closed: an object may name one that is missing, and a store that was read from
outside may have cycles.  A collection keeps what the roots need, which is what the closure
of each root visits.
-/
namespace Localview
open Worklist OrderedSet

abbrev ObjectHash := String

/-- An object; of its kind, schema version and payload the store reads nothing. -/
structure RuntimeObject (P : Type) where
  content : P
  dependencies : List ObjectHash

/-- Objects by the hash of their content. -/
structure ContentStore (P : Type) where
  objects : AssocMap ObjectHash (RuntimeObject P)

namespace ContentStore
variable {P : Type}

section
variable (store : ContentStore P)

def get (hash : ObjectHash) : Option (RuntimeObject P) :=
  store.objects.get hash

def len : Nat := store.objects.size

/-- What a stored object depends on; nothing, where no object is stored. -/
def dependencies (hash : ObjectHash) : List ObjectHash :=
  match store.get hash with
  | some object => object.dependencies
  | none => []

/-- The hashes under which objects are stored. -/
def hashes : List ObjectHash := store.objects.entries.map Prod.fst

theorem mem_hashes_of_dependencies (hash : ObjectHash)
    (h : store.dependencies hash ≠ []) : hash ∈ store.hashes := by
  apply store.objects.get_isSome_iff.mp
  cases hget : store.objects.get hash with
  | some object => rfl
  | none =>
    rw [dependencies, get, hget] at h
    exact absurd rfl h

/-- The loop over a queue of hashes that starts at the root. -/
def dependencyClosure (root : ObjectHash) : OrderedSet ObjectHash :=
  run store.dependencies store.hashes store.mem_hashes_of_dependencies ⟨.empty, [root]⟩

/-- What a collection keeps. -/
def keep (roots : List ObjectHash) : OrderedSet ObjectHash :=
  OrderedSet.ofList (roots.flatMap fun root => (store.dependencyClosure root).toList)

/-- The store after a collection, and how many objects it dropped. -/
def collectGarbage (roots : List ObjectHash) : ContentStore P × Nat :=
  let keep := store.keep roots
  let objects := store.objects.retain fun hash _ => keep.contains hash
  (⟨objects⟩, store.objects.size - objects.size)

/-- One object names another among its dependencies, any number of times; only objects that
are stored lead on. -/
def Reaches : ObjectHash → ObjectHash → Prop :=
  Relation.ReflTransGen fun hash hash' =>
    ∃ object, store.get hash = some object ∧ hash' ∈ object.dependencies

end

variable {store : ContentStore P}

theorem mem_dependencies {hash hash' : ObjectHash} :
    hash' ∈ store.dependencies hash ↔
      ∃ object, store.get hash = some object ∧ hash' ∈ object.dependencies := by
  rw [dependencies]
  cases store.get hash with
  | none => simp
  | some object => simp

theorem reachable_iff {hash hash' : ObjectHash} :
    Reachable store.dependencies hash hash' ↔ store.Reaches hash hash' := by
  have hrel : (fun hash hash' => hash' ∈ store.dependencies hash) =
      fun hash hash' => ∃ object, store.get hash = some object ∧ hash' ∈ object.dependencies :=
    funext fun _ => funext fun _ => propext mem_dependencies
  rw [Reachable, hrel]
  rfl

theorem mem_dependencyClosure {root hash : ObjectHash} :
    hash ∈ (store.dependencyClosure root).toList ↔ store.Reaches root hash :=
  (mem_run_iff store.mem_hashes_of_dependencies).trans reachable_iff

variable {roots : List ObjectHash}

theorem mem_keep {hash : ObjectHash} :
    hash ∈ (store.keep roots).toList ↔ ∃ root ∈ roots, store.Reaches root hash := by
  rw [keep, mem_ofList, List.mem_flatMap]
  exact exists_congr fun root => and_congr_right fun _ => mem_dependencyClosure

/-- The objects kept are those that a root reaches. -/
theorem get_collectGarbage {hash : ObjectHash} {object : RuntimeObject P} :
    (store.collectGarbage roots).1.get hash = some object ↔
      store.get hash = some object ∧ ∃ root ∈ roots, store.Reaches root hash := by
  rw [← mem_keep, ← contains_iff]
  have hget : (store.collectGarbage roots).1.get hash =
      (store.get hash).filter fun _ => (store.keep roots).contains hash :=
    AssocMap.get_retain store.objects _
  rw [hget, Option.filter_eq_some_iff]

/-- What a root reaches it reaches after the collection as well, and nothing else. -/
theorem reaches_collectGarbage {root hash : ObjectHash} (hroot : root ∈ roots) :
    (store.collectGarbage roots).1.Reaches root hash ↔ store.Reaches root hash := by
  constructor
  · intro h
    refine Relation.ReflTransGen.mono (fun hash hash' hstep => ?_) _ _ h
    obtain ⟨object, hget, hmem⟩ := hstep
    exact ⟨object, (get_collectGarbage.mp hget).1, hmem⟩
  · intro h
    induction h with
    | refl => exact .refl
    | tail hreach hstep ih =>
      -- the object that leads on is reached, so it was kept
      obtain ⟨object, hget, hmem⟩ := hstep
      exact ih.tail ⟨object, get_collectGarbage.mpr ⟨hget, root, hroot, hreach⟩, hmem⟩

theorem keep_collectGarbage (store : ContentStore P) (roots : List ObjectHash) :
    (store.collectGarbage roots).1.keep roots = store.keep roots := by
  apply ext_mem
  intro hash
  rw [mem_keep, mem_keep]
  exact exists_congr fun root => and_congr_right fun hroot => reaches_collectGarbage hroot

/-- A second collection keeps all that the first one kept. -/
theorem collectGarbage_again (store : ContentStore P) (roots : List ObjectHash) :
    (store.collectGarbage roots).1.collectGarbage roots = ((store.collectGarbage roots).1, 0) := by
  have hsame : (store.collectGarbage roots).1.objects.retain
      (fun hash _ => (store.keep roots).contains hash) =
        (store.collectGarbage roots).1.objects := by
    refine AssocMap.retain_eq_self fun hash object hmem => ?_
    exact (List.mem_filter.mp hmem).2
  rw [collectGarbage, keep_collectGarbage]
  simp only [hsame, Nat.sub_self]

/-- **A collection is exact**, for every store, whatever its objects name, and all roots: the
loop over a queue ends from wherever it is begun, and a closure is what it has visited then;
the stored objects that a root reaches are kept, the closure of each root is what it was, the
number returned is how many objects are gone, and a second collection drops nothing. -/
theorem collectGarbage_exact (store : ContentStore P) (roots : List ObjectHash) :
    (WellFounded fun s' s => step store.dependencies s = some s') ∧
    (∀ root, ∃ last,
      Relation.ReflTransGen (fun s s' => step store.dependencies s = some s')
        ⟨.empty, [root]⟩ last ∧
      last.queue = [] ∧ store.dependencyClosure root = last.visited) ∧
    (∀ hash object, (store.collectGarbage roots).1.get hash = some object ↔
      store.get hash = some object ∧ ∃ root ∈ roots, store.Reaches root hash) ∧
    (∀ root ∈ roots, (store.collectGarbage roots).1.dependencyClosure root =
        store.dependencyClosure root ∧
      ∀ hash, hash ∈ (store.dependencyClosure root).toList ↔ store.Reaches root hash) ∧
    (store.collectGarbage roots).1.len + (store.collectGarbage roots).2 = store.len ∧
    (store.collectGarbage roots).1.collectGarbage roots =
      ((store.collectGarbage roots).1, 0) := by
  refine ⟨wellFounded_step store.mem_hashes_of_dependencies,
    fun root => run_reached store.mem_hashes_of_dependencies _, fun _ _ => get_collectGarbage,
    fun root hroot => ⟨?_, fun _ => mem_dependencyClosure⟩, ?_, collectGarbage_again store roots⟩
  · apply OrderedSet.ext_mem
    intro hash
    rw [mem_dependencyClosure, mem_dependencyClosure]
    exact reaches_collectGarbage hroot
  · have hle := store.objects.size_retain_le fun hash _ => (store.keep roots).contains hash
    exact Nat.add_sub_cancel' hle

end ContentStore
end Localview
