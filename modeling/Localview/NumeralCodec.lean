import Mathlib.Data.Nat.Digits.Lemmas
import Mathlib.Logic.Equiv.List
import Mathlib.Tactic.DeriveEncodable
import Localview.JournalFile

/-! # A lawful line codec

The journal is proved correct over any `EntryCodec`.  This module gives one:
every entry has a number (`Encodable`), and a line is that number in decimal
after a marker.  It shows that the three laws can be met together, and closed
statements about files are made with it.
-/
namespace Localview
open List

instance encodableChar : Encodable Char := Encodable.ofLeftInverse Char.toNat Char.ofNat Char.ofNat_toNat

instance encodableString : Encodable String :=
  Encodable.ofLeftInverse String.toList String.ofList fun _ => String.ofList_toList

instance encodableBitVec (w : Nat) : Encodable (BitVec w) :=
  Encodable.ofLeftInverse BitVec.toNat (BitVec.ofNat w) fun x => by simp

deriving instance Encodable for PrincipalRef, ProviderIncarnationRef, TargetIncarnationRef
deriving instance Encodable for TransportResult, DispatchResult, WorldOutcome
deriving instance Encodable for ActionRiskClass, ActionIdempotencyClass
deriving instance Encodable for ActionEnvelopeMetadata, CanonicalActionEnvelope
deriving instance Encodable for DispatchPreparationReceipt, DispatchLinearizationReceipt
deriving instance Encodable for ActionPostconditionVerdict, ActionPostconditionEvidenceBinding
deriving instance Encodable for ConsequentialPostconditionObservationCause
deriving instance Encodable for ActionPostconditionReceipt
deriving instance Encodable for ConsequentialJournalTransition, ConsequentialJournalEntry

/-- A marker, then the decimal digits, least significant first. -/
def numeralLine (n : Nat) : Bytes := 35 :: (Nat.digits 10 n).map fun d => UInt8.ofNat (48 + d)

/-- The number a line holds. -/
def lineNumeral : Bytes → Option Nat
  | [] => none
  | _ :: digits => some (Nat.ofDigits 10 (digits.map fun b => b.toNat - 48))

theorem lineNumeral_numeralLine (n : Nat) : lineNumeral (numeralLine n) = some n := by
  have hdigit : ∀ d ∈ Nat.digits 10 n, (UInt8.ofNat (48 + d)).toNat - 48 = d := by
    intro d hd
    have hlt : d < 10 := Nat.digits_lt_base (by omega) hd
    rw [UInt8.toNat_ofNat']
    omega
  have hdigits : ((Nat.digits 10 n).map fun d => (UInt8.ofNat (48 + d)).toNat - 48) =
      Nat.digits 10 n := by
    rw [map_congr_left hdigit, map_id']
  simp only [numeralLine, lineNumeral, map_map, Function.comp_def, hdigits,
    Nat.ofDigits_digits]

theorem newline_not_mem_numeralLine (n : Nat) : newline ∉ numeralLine n := by
  intro hmem
  rcases mem_cons.mp hmem with h | h
  · exact absurd h (by decide)
  · obtain ⟨d, hd, hb⟩ := mem_map.mp h
    have hlt : d < 10 := Nat.digits_lt_base (by omega) hd
    have hnat : (UInt8.ofNat (48 + d)).toNat = 10 := by rw [hb]; rfl
    rw [UInt8.toNat_ofNat'] at hnat
    omega

/-- Lines are numerals; a line that holds no entry's number is malformed. -/
def numeralCodec : EntryCodec where
  toVec entry := .ok (numeralLine (Encodable.encode entry))
  fromSlice line :=
    match (lineNumeral line).bind Encodable.decode with
    | some entry => .ok entry
    | none => .error "malformed record"
  fromSlice_toVec := by
    intro e line h
    obtain rfl : numeralLine (Encodable.encode e) = line := by simpa using h
    simp [lineNumeral_numeralLine]
  newline_not_mem := by
    intro e line h
    obtain rfl : numeralLine (Encodable.encode e) = line := by simpa using h
    exact newline_not_mem_numeralLine _
  fromSlice_nil := by
    intro e h
    simp [lineNumeral] at h

end Localview
