import Localview.EarlyReturn
import Localview.Bisection

/-! # Searching the width at which a layout starts to fail

`discover_breakpoint` halves the widths between a good and a bad one until the two differ by
the tolerance.  Arithmetic on `u32` that leaves its range is a stop of its own, as is a
search that is given too few turns.
-/
namespace Localview
open EarlyReturn Bisection UInt32

/-- Why a search ends without a breakpoint. -/
inductive SearchStop
  | overflow
  | outOfTurns

/-- `a - b` on `u32` -/
def subWidth (a b : UInt32) : Except SearchStop UInt32 := do
  rejectIf (a < b) .overflow
  return a - b

/-- `a + b` on `u32` -/
def addWidth (a b : UInt32) : Except SearchStop UInt32 := do
  rejectIf (size ≤ a.toNat + b.toNat) .overflow
  return a + b

def midWidth (low high : UInt32) : Except SearchStop UInt32 := do
  let width ← subWidth high low
  addWidth low (width / 2)

/-- The loop of `discover_breakpoint`, for a number of turns. -/
def narrowBracket (failsAt : UInt32 → Bool) (lowFails : Bool) (tolerance : UInt32) :
    Nat → UInt32 → UInt32 → Except SearchStop (UInt32 × UInt32)
  | 0, _, _ => .error .outOfTurns
  | turns + 1, low, high => do
    let width ← subWidth high low
    if max tolerance 1 < width then
      let mid ← midWidth low high
      if failsAt mid = lowFails then narrowBracket failsAt lowFails tolerance turns mid high
      else narrowBracket failsAt lowFails tolerance turns low mid
    else return (low, high)

def orderedEnds (knownGood knownBad : UInt32) : UInt32 × UInt32 :=
  if knownBad < knownGood then (knownBad, knownGood) else (knownGood, knownBad)

/-- The search between two ends of which `low` is the lower one. -/
def searchBetween (turns : Nat) (failsAt : UInt32 → Bool) (tolerance low high : UInt32) :
    Except SearchStop (Option UInt32) :=
  if failsAt low = failsAt high then return none
  else do
    let (low', high') ← narrowBracket failsAt (failsAt low) tolerance turns low high
    return some (if failsAt low then high' else low')

def discoverBreakpoint (turns : Nat) (failsAt : UInt32 → Bool)
    (knownGood knownBad tolerance : UInt32) : Except SearchStop (Option UInt32) :=
  if knownGood = knownBad then return none
  else searchBetween turns failsAt tolerance (orderedEnds knownGood knownBad).1
    (orderedEnds knownGood knownBad).2

/-! ## Arithmetic that stays in range -/

theorem subWidth_ok {a b : UInt32} (h : b ≤ a) : subWidth a b = .ok (a - b) := by
  rw [subWidth, rejectIf, if_neg (UInt32.not_lt.mpr h)]
  rfl

theorem addWidth_ok {a b : UInt32} (h : a.toNat + b.toNat < size) :
    addWidth a b = .ok (a + b) := by
  rw [addWidth, rejectIf, if_neg (Nat.not_le.mpr h)]
  rfl

/-- The midpoint of two ordered widths is computed without overflow. -/
theorem midWidth_ok {low high : UInt32} (h : low < high) :
    ∃ mid, midWidth low high = .ok mid ∧
      mid.toNat = low.toNat + (high.toNat - low.toNat) / 2 := by
  have hlt : low.toNat < high.toNat := lt_iff_toNat_lt.mp h
  have hle : low ≤ high := le_iff_toNat_le.mpr (Nat.le_of_lt hlt)
  have hmax : high.toNat < size := high.toNat_lt
  have hhalf : ((high - low) / 2).toNat = (high.toNat - low.toNat) / 2 := by
    rw [UInt32.toNat_div, UInt32.toNat_sub_of_le _ _ hle]
    rfl
  have hsum : low.toNat + ((high - low) / 2).toNat < size := by omega
  refine ⟨low + (high - low) / 2, ?_, ?_⟩
  · rw [midWidth, subWidth_ok hle]
    exact addWidth_ok hsum
  · rw [UInt32.toNat_add, hhalf, Nat.mod_eq_of_lt]
    rw [hhalf] at hsum
    exact hsum

/-- The answers of a probe over the natural numbers. -/
def answersOf (failsAt : UInt32 → Bool) (n : ℕ) : Bool := failsAt (.ofNat n)

@[simp] theorem answersOf_toNat (failsAt : UInt32 → Bool) (w : UInt32) :
    answersOf failsAt w.toNat = failsAt w := by
  rw [answersOf, UInt32.ofNat_toNat]

theorem toNat_max_one (tolerance : UInt32) :
    (max tolerance 1).toNat = max tolerance.toNat 1 := by
  show (if tolerance ≤ 1 then 1 else tolerance).toNat = _
  by_cases h : tolerance ≤ 1
  · have hle : tolerance.toNat ≤ 1 := le_iff_toNat_le.mp h
    rw [if_pos h, Nat.max_eq_right hle]
    rfl
  · have hlt : 1 < tolerance.toNat :=
      Nat.not_le.mp fun hle => h (le_iff_toNat_le.mpr hle)
    rw [if_neg h, Nat.max_eq_left (Nat.le_of_lt hlt)]

variable {failsAt : UInt32 → Bool}

/-- A turn keeps the bracket and halves it, so that as many turns as the bracket is wide are
enough to end within the tolerance. -/
theorem narrowBracket_ok {a : Bool} (tolerance : UInt32) :
    ∀ (n : Nat) {low high : UInt32}, Bracket (answersOf failsAt) a low.toNat high.toNat →
      high.toNat - low.toNat ≤ n →
      ∃ l r, (∀ turns, n ≤ turns →
          narrowBracket failsAt a tolerance turns low high = .ok (l, r)) ∧
        Bracket (answersOf failsAt) a l.toNat r.toNat ∧
        low.toNat ≤ l.toNat ∧ r.toNat ≤ high.toNat ∧
        r.toNat - l.toNat ≤ max 1 tolerance.toNat := by
  intro n
  induction n with
  | zero =>
    intro low high h hn
    have hlt := h.lt
    omega
  | succ n ih =>
    intro low high h hn
    have hlt : low < high := lt_iff_toNat_lt.mpr h.lt
    have hle : low ≤ high := le_iff_toNat_le.mpr (Nat.le_of_lt h.lt)
    have hwidth : (high - low).toNat = high.toNat - low.toNat := UInt32.toNat_sub_of_le _ _ hle
    have hmax := toNat_max_one tolerance
    have hstep : ∀ turns, n + 1 ≤ turns → ∃ fewer, turns = fewer + 1 ∧ n ≤ fewer :=
      fun turns hturns => ⟨turns - 1, by omega, by omega⟩
    by_cases hwide : max tolerance 1 < high - low
    · have hgap : (max tolerance 1).toNat < (high - low).toNat :=
        lt_iff_toNat_lt.mp hwide
      obtain ⟨mid, hok, hmid⟩ := midWidth_ok hlt
      obtain ⟨habove, hbelow⟩ :=
        midpoint_between low.toNat high.toNat (by omega)
      rw [← hmid] at habove hbelow
      by_cases hsame : failsAt mid = a
      · obtain ⟨l, r, hrun, hb, hl, hr, hgap'⟩ :=
          ih (h.raise hbelow ((answersOf_toNat failsAt mid).trans hsame)) (by omega)
        refine ⟨l, r, fun turns hturns => ?_, hb, by omega, hr, hgap'⟩
        obtain ⟨fewer, rfl, hfewer⟩ := hstep turns hturns
        rw [narrowBracket, subWidth_ok hle]
        simpa [hwide, hok, hsame, bind, Except.bind] using hrun fewer hfewer
      · obtain ⟨l, r, hrun, hb, hl, hr, hgap'⟩ :=
          ih (h.lower habove (by rwa [answersOf_toNat])) (by omega)
        refine ⟨l, r, fun turns hturns => ?_, hb, hl, by omega, hgap'⟩
        obtain ⟨fewer, rfl, hfewer⟩ := hstep turns hturns
        rw [narrowBracket, subWidth_ok hle]
        simpa [hwide, hok, hsame, bind, Except.bind] using hrun fewer hfewer
    · refine ⟨low, high, fun turns hturns => ?_, h, Nat.le_refl _, Nat.le_refl _, ?_⟩
      · obtain ⟨fewer, rfl, -⟩ := hstep turns hturns
        rw [narrowBracket, subWidth_ok hle]
        simp [hwide, bind, Except.bind, pure, Except.pure]
      · have hnarrow : (high - low).toNat ≤ (max tolerance 1).toNat := by
          by_contra hgt
          exact hwide (lt_iff_toNat_lt.mpr (Nat.not_le.mp hgt))
        omega

/-! ## The search -/

section
variable (failsAt : UInt32 → Bool)

def failingEnd (knownGood knownBad : UInt32) : UInt32 :=
  if failsAt knownBad then knownBad else knownGood

def passingEnd (knownGood knownBad : UInt32) : UInt32 :=
  if failsAt knownBad then knownGood else knownBad

/-- Growing widths only start, or only stop, to fail. -/
def MonotoneBetween (low high : UInt32) : Prop :=
  (∀ x y, low ≤ x → x ≤ y → y ≤ high → failsAt x = true → failsAt y = true) ∨
    (∀ x y, low ≤ x → x ≤ y → y ≤ high → failsAt y = true → failsAt x = true)

/-- The width `w` passes and the width `f` fails, near it on the failing end's side. -/
structure Separates (knownGood knownBad tolerance w f : UInt32) :
    Prop where
  passes : failsAt w = false
  fails : failsAt f = true
  side : failingEnd failsAt knownGood knownBad ≤ f ∧ f < w ∧
      w ≤ passingEnd failsAt knownGood knownBad ∨
    passingEnd failsAt knownGood knownBad ≤ w ∧ w < f ∧
      f ≤ failingEnd failsAt knownGood knownBad
  near : w.toNat ≤ f.toNat + max 1 tolerance.toNat ∧ f.toNat ≤ w.toNat + max 1 tolerance.toNat
  /-- A monotone probe has one boundary, and it lies between the two. -/
  boundary : MonotoneBetween failsAt (orderedEnds knownGood knownBad).1
      (orderedEnds knownGood knownBad).2 →
    ∃ b, SwitchesAt (answersOf failsAt) (orderedEnds knownGood knownBad).1.toNat
        (orderedEnds knownGood knownBad).2.toNat b ∧
      min w.toNat f.toNat < b ∧ b ≤ max w.toNat f.toNat

/-- What the search is for. -/
structure Locates (knownGood knownBad tolerance : UInt32)
    (found : Option UInt32) : Prop where
  none_iff : found = none ↔ knownGood = knownBad ∨ failsAt knownGood = failsAt knownBad
  separates : ∀ w, found = some w → ∃ f, Separates failsAt knownGood knownBad tolerance w f

end

theorem orderedEnds_cases (knownGood knownBad : UInt32) :
    (orderedEnds knownGood knownBad = (knownBad, knownGood) ∧ knownBad < knownGood) ∨
      (orderedEnds knownGood knownBad = (knownGood, knownBad) ∧ knownGood ≤ knownBad) := by
  by_cases h : knownBad < knownGood
  · exact .inl ⟨if_pos h, h⟩
  · exact .inr ⟨if_neg h, UInt32.not_lt.mp h⟩

/-- Which end fails is the same question for the ordered ends. -/
theorem ends_of_orderedEnds {knownGood knownBad low high : UInt32}
    (hends : orderedEnds knownGood knownBad = (low, high)) (hne : failsAt low ≠ failsAt high) :
    failingEnd failsAt knownGood knownBad = (if failsAt low then low else high) ∧
      passingEnd failsAt knownGood knownBad = if failsAt low then high else low := by
  unfold failingEnd passingEnd
  rcases orderedEnds_cases knownGood knownBad with ⟨heq, -⟩ | ⟨heq, -⟩
  · obtain ⟨rfl, rfl⟩ := Prod.mk.inj (heq.symm.trans hends)
    exact ⟨rfl, rfl⟩
  · obtain ⟨rfl, rfl⟩ := Prod.mk.inj (heq.symm.trans hends)
    cases hlow : failsAt knownGood <;> cases hhigh : failsAt knownBad <;> simp_all

/-- A monotone probe never returns to the answer of its lower end. -/
theorem MonotoneBetween.stays {low high : UInt32} (h : MonotoneBetween failsAt low high)
    (hne : failsAt low ≠ failsAt high) (x y : ℕ) (hlow : low.toNat ≤ x) (hxy : x ≤ y)
    (hhigh : y ≤ high.toNat) (heq : answersOf failsAt y = answersOf failsAt low.toNat) :
    answersOf failsAt x = answersOf failsAt low.toNat := by
  rw [answersOf_toNat] at heq ⊢
  have hx : (ofNat x).toNat = x :=
    toNat_ofNat_of_lt' (Nat.lt_of_le_of_lt (Nat.le_trans hxy hhigh) high.toNat_lt)
  have hy : (ofNat y).toNat = y :=
    toNat_ofNat_of_lt' (Nat.lt_of_le_of_lt hhigh high.toNat_lt)
  have hlow' : low ≤ .ofNat x := le_iff_toNat_le.mpr (by omega)
  have hxy' : ofNat x ≤ .ofNat y := le_iff_toNat_le.mpr (by omega)
  have hhigh' : ofNat y ≤ high := le_iff_toNat_le.mpr (by omega)
  have hlowhigh : low ≤ high := le_iff_toNat_le.mpr (by omega)
  unfold answersOf at heq ⊢
  rcases h with hup | hdown
  · cases hstart : failsAt low with
    | true => exact hup low (.ofNat x) UInt32.le_rfl hlow' (UInt32.le_trans hxy' hhigh') hstart
    | false =>
      rw [hstart] at heq
      by_contra hx
      have hy := hup _ _ hlow' hxy' hhigh' (by simpa using hx)
      rw [heq] at hy
      cases hy
  · cases hstart : failsAt low with
    | true =>
      rw [hstart] at heq
      exact hdown _ _ hlow' hxy' hhigh' heq
    | false =>
      have hend : failsAt high = true := by
        by_contra hend
        exact hne (hstart.trans (by simpa using hend))
      have := hdown low high UInt32.le_rfl hlowhigh UInt32.le_rfl hend
      rw [hstart] at this
      cases this

theorem bracket_of_ends {low high : UInt32} (hlt : low < high) (hne : failsAt low ≠ failsAt high) :
    Bracket (answersOf failsAt) (failsAt low) low.toNat high.toNat :=
  ⟨lt_iff_toNat_lt.mp hlt, answersOf_toNat failsAt low, by
    rw [answersOf_toNat]
    exact hne.symm⟩

/-- A narrow bracket inside the ends is what the search is for. -/
theorem separates_of_bracket {knownGood knownBad tolerance low high l r : UInt32}
    (hends : orderedEnds knownGood knownBad = (low, high)) (hne : failsAt low ≠ failsAt high)
    (hlt : low < high) (h : Bracket (answersOf failsAt) (failsAt low) l.toNat r.toNat)
    (hl : low.toNat ≤ l.toNat) (hr : r.toNat ≤ high.toNat)
    (hgap : r.toNat - l.toNat ≤ max 1 tolerance.toNat) :
    ∃ f, Separates failsAt knownGood knownBad tolerance (if failsAt low then r else l) f := by
  obtain ⟨hfailing, hpassing⟩ := ends_of_orderedEnds hends hne
  have hlr := h.lt
  have hleft : failsAt l = failsAt low := (answersOf_toNat failsAt l).symm.trans h.low_eq
  have hright : failsAt r ≠ failsAt low := by
    have := h.high_ne
    rwa [answersOf_toNat] at this
  have hboundary : MonotoneBetween failsAt low high →
      ∃ b, SwitchesAt (answersOf failsAt) low.toNat high.toNat b ∧ l.toNat < b ∧ b ≤ r.toNat := by
    intro hmono
    have hbracket := bracket_of_ends hlt hne
    rw [← answersOf_toNat failsAt low] at hbracket h
    obtain ⟨b, hb⟩ := hbracket.exists_switchesAt (hmono.stays hne)
    exact ⟨b, hb, hb.within h hl hr⟩
  have hnear : l.toNat ≤ r.toNat + max 1 tolerance.toNat ∧
      r.toNat ≤ l.toNat + max 1 tolerance.toNat := by omega
  rw [← le_iff_toNat_le] at hl hr
  have hinside : l < r := lt_iff_toNat_lt.mpr hlr
  by_cases hfails : failsAt low = true
  · -- the lower end fails: the result is the upper point of the bracket
    rw [hfails] at hleft hright hfailing hpassing ⊢
    refine ⟨l, ?_, hleft, .inl ?_, hnear.symm, ?_⟩
    · simpa using hright
    · rw [hfailing, hpassing]
      exact ⟨hl, hinside, hr⟩
    · rw [hends]
      intro hmono
      obtain ⟨b, hb, hlb, hbr⟩ := hboundary hmono
      exact ⟨b, hb, by simp only [if_true]; omega, by simp only [if_true]; omega⟩
  · rw [if_neg hfails] at hfailing hpassing ⊢
    rw [Bool.not_eq_true] at hfails
    rw [hfails] at hleft hright
    refine ⟨r, hleft, ?_, .inr ?_, hnear, ?_⟩
    · simpa using hright
    · rw [hfailing, hpassing]
      exact ⟨hl, hinside, hr⟩
    · rw [hends]
      intro hmono
      obtain ⟨b, hb, hlb, hbr⟩ := hboundary hmono
      exact ⟨b, hb, by omega, by omega⟩

theorem orderedEnds_lt {knownGood knownBad : UInt32} (hne : knownGood ≠ knownBad) :
    (orderedEnds knownGood knownBad).1 < (orderedEnds knownGood knownBad).2 := by
  rcases orderedEnds_cases knownGood knownBad with ⟨heq, hlt⟩ | ⟨heq, hle⟩ <;> rw [heq]
  · exact hlt
  · exact UInt32.lt_of_le_of_ne hle hne

theorem orderedEnds_alike (failsAt : UInt32 → Bool) (knownGood knownBad : UInt32) :
    failsAt (orderedEnds knownGood knownBad).1 = failsAt (orderedEnds knownGood knownBad).2 ↔
      failsAt knownGood = failsAt knownBad := by
  rcases orderedEnds_cases knownGood knownBad with ⟨heq, -⟩ | ⟨heq, -⟩ <;> rw [heq]
  exact eq_comm

/-- **The search ends, without overflow, and separates a passing from a failing width exactly
where the ends differ.** -/
theorem discoverBreakpoint_locates (failsAt : UInt32 → Bool)
    (knownGood knownBad tolerance : UInt32) :
    ∃ enough found, (∀ turns, enough ≤ turns →
        discoverBreakpoint turns failsAt knownGood knownBad tolerance = .ok found) ∧
      Locates failsAt knownGood knownBad tolerance found := by
  by_cases hsame : knownGood = knownBad
  · refine ⟨0, none, fun turns _ => if_pos hsame, ?_, fun w hw => nomatch hw⟩
    simp [hsame]
  obtain ⟨low, high, hends⟩ : ∃ low high, orderedEnds knownGood knownBad = (low, high) :=
    ⟨_, _, rfl⟩
  have hlt := orderedEnds_lt hsame
  have halike := orderedEnds_alike failsAt knownGood knownBad
  rw [hends] at hlt halike
  by_cases hboth : failsAt low = failsAt high
  · refine ⟨0, none, fun turns _ => ?_, ?_, fun w hw => nomatch hw⟩
    · rw [discoverBreakpoint, if_neg hsame, hends, searchBetween, if_pos hboth]
      rfl
    · simp [halike.mp hboth]
  have hbracket := bracket_of_ends hlt hboth
  obtain ⟨l, r, hrun, hb, hl, hr, hgap⟩ :=
    narrowBracket_ok tolerance (high.toNat - low.toNat) hbracket (Nat.le_refl _)
  refine ⟨high.toNat - low.toNat, some (if failsAt low then r else l), fun turns hturns => ?_,
    ?_, ?_⟩
  · rw [discoverBreakpoint, if_neg hsame, hends, searchBetween, if_neg hboth, hrun turns hturns]
    rfl
  · simp [hsame, ← halike, hboth]
  · rintro w hw
    cases hw
    exact separates_of_bracket hends hboth hlt hb hl hr hgap

end Localview
