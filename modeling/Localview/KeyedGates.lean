import Localview.AssocMap

/-! # Gates by key

One mutex a key, shared by reference count: whoever asks for a key's gate gets a clone of
it, and the map drops the gates of which nobody has a clone, each time somebody asks.
What keeps two clones of a key from being locked at once is that a key's clones are all of
the gate that the map has for it (`Exclusive.current`).
-/

/-- A clone of a gate, and whether its owner has the lock. -/
structure GateHandle (κ : Type*) where
  id : Nat
  key : κ
  gate : Nat
  holds : Bool

/-- The map of gates and the clones that are out. -/
structure KeyedGates (κ : Type*) where
  gates : AssocMap κ Nat
  handles : List (GateHandle κ)
  (nextGate nextHandle : Nat)

namespace KeyedGates
open List AssocMap
variable {κ : Type*}

def empty : KeyedGates κ :=
  { gates := AssocMap.empty, handles := [], nextGate := 0, nextHandle := 0 }

/-- The map's own reference to the gate and the clones. -/
def strongCount (s : KeyedGates κ) (gate : Nat) : Nat :=
  1 + s.handles.countP fun h => h.gate = gate

/-- The map without the gates that nobody has a clone of. -/
def pruned (s : KeyedGates κ) : AssocMap κ Nat := s.gates.retain fun _ g => 1 < s.strongCount g

/-- A clone of the key's gate, which is new where the map has none. -/
def acquire [DecidableEq κ] (s : KeyedGates κ) (key : κ) : KeyedGates κ :=
  match s.pruned.get key with
  | some g =>
      { s with
        gates := s.pruned
        handles := ⟨s.nextHandle, key, g, false⟩ :: s.handles
        nextHandle := s.nextHandle + 1 }
  | none =>
      { gates := s.pruned.insert key s.nextGate
        handles := ⟨s.nextHandle, key, s.nextGate, false⟩ :: s.handles, nextGate := s.nextGate + 1
        nextHandle := s.nextHandle + 1 }

/-- No clone of the clone's gate has the lock. -/
def isFree (s : KeyedGates κ) (id : Nat) : Bool :=
  s.handles.all fun h => h.id ≠ id || s.handles.all fun h' => h'.gate ≠ h.gate || !h'.holds

/-- The clone gets the lock, or gives it back. -/
def setHolds (s : KeyedGates κ) (id : Nat) (holds : Bool) : KeyedGates κ :=
  { s with handles := s.handles.map fun h => if h.id = id then { h with holds } else h }

/-- The clone is dropped. -/
def release (s : KeyedGates κ) (id : Nat) : KeyedGates κ :=
  { s with handles := s.handles.filter fun h => h.id ≠ id }

/-- What keeps a key from being locked twice. -/
structure Exclusive [DecidableEq κ] (s : KeyedGates κ) : Prop where
  current : ∀ h ∈ s.handles, s.gates.get h.key = some h.gate
  alone : ∀ h ∈ s.handles, ∀ h' ∈ s.handles, h.holds = true → h'.holds = true →
    h.gate = h'.gate → h = h'
  known : ∀ h ∈ s.handles, h.id < s.nextHandle
  nodup : (s.handles.map GateHandle.id).Nodup

section
variable [DecidableEq κ] {s : KeyedGates κ} {id : Nat} {key : κ} {h h' : GateHandle κ}

theorem exclusive_empty : (empty : KeyedGates κ).Exclusive :=
  ⟨by simp [empty], by simp [empty], by simp [empty], by simp [empty]⟩

/-- **Exclusion**: of the clones of a key one at most has the lock. -/
theorem Exclusive.eq_of_key (hs : s.Exclusive) (hh : h ∈ s.handles) (hh' : h' ∈ s.handles)
    (hholds : h.holds = true) (hholds' : h'.holds = true) (hkey : h.key = h'.key) : h = h' := by
  refine hs.alone h hh h' hh' hholds hholds' ?_
  have hgate := hs.current h hh
  rw [hkey, hs.current h' hh'] at hgate
  exact (Option.some.inj hgate).symm

/-- A gate of which there is a clone stays in the map. -/
theorem Exclusive.pruned_get (hs : s.Exclusive) (hh : h ∈ s.handles) :
    s.pruned.get h.key = some h.gate := by
  have hcount : 0 < s.handles.countP fun x => x.gate = h.gate :=
    countP_pos_iff.mpr ⟨h, hh, by simp⟩
  rw [pruned, get_retain, hs.current h hh, Option.filter_some, if_pos]
  rw [decide_eq_true_iff]
  unfold strongCount
  omega

theorem Exclusive.acquire (hs : s.Exclusive) : (s.acquire key).Exclusive := by
  have hcurrent : ∀ (g : Nat) (m : AssocMap κ Nat), m.get key = some g →
      (∀ h ∈ s.handles, m.get h.key = some h.gate) →
      ∀ h ∈ (⟨s.nextHandle, key, g, false⟩ :: s.handles : List (GateHandle κ)),
        m.get h.key = some h.gate := by
    rintro g m hg hold h (_ | ⟨_, hh⟩)
    · exact hg
    · exact hold h hh
  have halone : ∀ g, ∀ h ∈ (⟨s.nextHandle, key, g, false⟩ :: s.handles : List (GateHandle κ)),
      ∀ h' ∈ (⟨s.nextHandle, key, g, false⟩ :: s.handles : List (GateHandle κ)),
        h.holds = true → h'.holds = true → h.gate = h'.gate → h = h' := by
    rintro g h (_ | ⟨_, hh⟩) h' (_ | ⟨_, hh'⟩) hholds hholds' hgate
    · rfl
    · cases hholds
    · cases hholds'
    · exact hs.alone h hh h' hh' hholds hholds' hgate
  have hknown : ∀ g, ∀ h ∈ (⟨s.nextHandle, key, g, false⟩ :: s.handles : List (GateHandle κ)),
      h.id < s.nextHandle + 1 := by
    rintro g h (_ | ⟨_, hh⟩)
    · exact Nat.lt_succ_self _
    · exact Nat.lt_succ_of_lt (hs.known h hh)
  have hnodup : (s.nextHandle :: s.handles.map GateHandle.id).Nodup := by
    refine nodup_cons.mpr ⟨?_, hs.nodup⟩
    rintro hmem
    obtain ⟨h, hh, heq⟩ := mem_map.mp hmem
    have hlt := hs.known h hh
    omega
  unfold KeyedGates.acquire
  split
  · rename_i g hg
    exact ⟨hcurrent g _ hg fun h hh => hs.pruned_get hh, halone g, hknown g, hnodup⟩
  · rename_i hnone
    refine ⟨hcurrent _ _ (get_insert_self _) fun h hh => ?_, halone _, hknown _, hnodup⟩
    -- the key has no gate, so none of the clones is of it
    rw [get_insert_of_ne]
    · exact hs.pruned_get hh
    · intro hkey
      have hget := hs.pruned_get hh
      rw [hkey, hnone] at hget
      cases hget

omit [DecidableEq κ] in
/-- The clones after one of them has got or given back the lock. -/
theorem mem_setHolds {holds : Bool} (hh : h ∈ (s.setHolds id holds).handles) :
    ∃ h₀ ∈ s.handles, h₀.id = h.id ∧ h₀.key = h.key ∧ h₀.gate = h.gate ∧
      (h.id = id ∧ h.holds = holds ∨ h.id ≠ id ∧ h = h₀) := by
  obtain ⟨h₀, hh₀, rfl⟩ := mem_map.mp hh
  by_cases hid : h₀.id = id
  · exact ⟨h₀, hh₀, by simp [hid], by simp [hid], by simp [hid], .inl (by simp [hid])⟩
  · exact ⟨h₀, hh₀, by simp [hid], by simp [hid], by simp [hid], .inr (by simp [hid])⟩

theorem Exclusive.setHolds {holds : Bool} (hs : s.Exclusive)
    (hfree : holds = true → s.isFree id = true) : (s.setHolds id holds).Exclusive := by
  have hids : ((s.setHolds id holds).handles.map GateHandle.id) = s.handles.map GateHandle.id := by
    simp only [KeyedGates.setHolds, map_map]
    apply map_congr_left
    intro h _
    by_cases hid : h.id = id <;> simp [hid]
  have hnodup : ((s.setHolds id holds).handles.map GateHandle.id).Nodup := by
    rw [hids]
    exact hs.nodup
  have hnobody : holds = true → ∀ h₀ ∈ s.handles, h₀.id = id → ∀ h' ∈ s.handles,
      h₀.gate = h'.gate → h'.holds ≠ true := by
    intro hholds h₀ hh₀ hid h' hh' hgate hheld
    have hall := all_eq_true.mp (hfree hholds) h₀ hh₀
    simp only [hid, ne_eq, not_true_eq_false, decide_false, Bool.false_or] at hall
    have hthis := all_eq_true.mp hall h' hh'
    simp [hgate, hheld] at hthis
  refine ⟨?_, ?_, ?_, hnodup⟩
  · intro h hh
    obtain ⟨h₀, hh₀, -, hkey, hgate, -⟩ := mem_setHolds hh
    rw [← hkey, ← hgate]
    exact hs.current h₀ hh₀
  · intro h hh h' hh' hholds hholds' hgate
    obtain ⟨h₀, hh₀, hid₀, -, hgate₀, hcase⟩ := mem_setHolds hh
    obtain ⟨h₁, hh₁, hid₁, -, hgate₁, hcase'⟩ := mem_setHolds hh'
    have hsame : h₀.gate = h₁.gate := hgate₀.trans (hgate.trans hgate₁.symm)
    apply inj_on_of_nodup_map hnodup hh hh'
    rcases hcase with ⟨hid, hset⟩ | ⟨hid, rfl⟩
    · rcases hcase' with ⟨hid', -⟩ | ⟨hid', rfl⟩
      · exact hid.trans hid'.symm
      · exact absurd hholds' (hnobody (hset.symm.trans hholds) h₀ hh₀ (hid₀.trans hid) _ hh₁ hsame)
    · rcases hcase' with ⟨hid', hset'⟩ | ⟨hid', rfl⟩
      · exact absurd hholds
          (hnobody (hset'.symm.trans hholds') h₁ hh₁ (hid₁.trans hid') _ hh₀ hsame.symm)
      · rw [hs.alone _ hh₀ _ hh₁ hholds hholds' hsame]
  · intro h hh
    obtain ⟨h₀, hh₀, hid, -⟩ := mem_setHolds hh
    rw [← hid]
    exact hs.known h₀ hh₀

theorem Exclusive.release (hs : s.Exclusive) : (s.release id).Exclusive := by
  have hsub : (s.release id).handles.Sublist s.handles := filter_sublist
  exact ⟨fun h hh => hs.current h (hsub.subset hh),
    fun h hh h' hh' => hs.alone h (hsub.subset hh) h' (hsub.subset hh'),
    fun h hh => hs.known h (hsub.subset hh), hs.nodup.sublist (hsub.map _)⟩

/-! ## What becomes of a clone -/

theorem mem_acquire (hh : h ∈ s.handles) : h ∈ (s.acquire key).handles := by
  unfold KeyedGates.acquire
  split
  · exact mem_cons_of_mem _ hh
  · exact mem_cons_of_mem _ hh

omit [DecidableEq κ] in
theorem mem_setHolds_of_ne {holds : Bool} (hh : h ∈ s.handles) (hid : h.id ≠ id) :
    h ∈ (s.setHolds id holds).handles :=
  mem_map.mpr ⟨h, hh, by simp [hid]⟩

omit [DecidableEq κ] in
theorem mem_setHolds_self {holds : Bool} (hh : h ∈ s.handles) :
    { h with holds } ∈ (s.setHolds h.id holds).handles :=
  mem_map.mpr ⟨h, hh, by simp⟩

omit [DecidableEq κ] in
theorem mem_release (hh : h ∈ s.handles) (hid : h.id ≠ id) : h ∈ (s.release id).handles :=
  mem_filter.mpr ⟨hh, by simp [hid]⟩

/-- The new clone. -/
theorem exists_acquire : ∃ h ∈ (s.acquire key).handles, h.id = s.nextHandle ∧ h.key = key := by
  unfold KeyedGates.acquire
  split
  · exact ⟨_, mem_cons_self, rfl, rfl⟩
  · exact ⟨_, mem_cons_self, rfl, rfl⟩

@[simp] theorem acquire_nextHandle : (s.acquire key).nextHandle = s.nextHandle + 1 := by
  unfold KeyedGates.acquire
  split
  · rfl
  · rfl

end
end KeyedGates
